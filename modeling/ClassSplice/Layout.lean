import ClassSplice.ReadError

/-!
# Byte layouts

A layout writes a value as bytes and reads a value off the front of some bytes. `Layout.Exact` says
that the two sides belong together: reading gives back a value exactly when the bytes start with
what writing it gives. The layouts built here keep the law, so a layout put together from them has
it too.
-/

namespace ClassSplice

structure Layout (α : Type) where
  write : α → Bytes
  read : Bytes → Except ReadError (α × Bytes)
  /-- The values that the layout has room for. -/
  Fits : α → Prop

namespace Layout

variable {α β : Type}

/-! ## Numbers, high byte first -/

def u8 : Layout UInt8 where
  write n := [n]
  read
    | a :: rest => .ok (a, rest)
    | _ => .error .endOfInput
  Fits _ := True

def u16 : Layout UInt16 where
  write n := [UInt8.ofNat (n.toNat / 0x100), UInt8.ofNat n.toNat]
  read
    | a :: b :: rest => .ok (UInt16.ofNat (a.toNat * 0x100 + b.toNat), rest)
    | _ => .error .endOfInput
  Fits _ := True

/-- The values of two layouts, one after the other. -/
def pair (first : Layout α) (second : Layout β) : Layout (α × β) where
  write p := first.write p.1 ++ second.write p.2
  read bytes :=
    match first.read bytes with
    | .error e => .error e
    | .ok (a, rest) =>
      match second.read rest with
      | .error e => .error e
      | .ok (b, rest) => .ok ((a, b), rest)
  Fits p := first.Fits p.1 ∧ second.Fits p.2

/-- A layout of `α` seen as one of `β`, where `make` and `parts` are inverse. -/
def imap (layout : Layout α) (make : α → β) (parts : β → α) : Layout β where
  write b := layout.write (parts b)
  read bytes :=
    match layout.read bytes with
    | .error e => .error e
    | .ok (a, rest) => .ok (make a, rest)
  Fits b := layout.Fits (parts b)

def u32 : Layout UInt32 :=
  (u16.pair u16).imap (fun p => UInt32.ofNat (p.1.toNat * 0x10000 + p.2.toNat))
    fun n => (UInt16.ofNat (n.toNat / 0x10000), UInt16.ofNat n.toNat)

def u64 : Layout UInt64 :=
  (u32.pair u32).imap (fun p => UInt64.ofNat (p.1.toNat * 0x100000000 + p.2.toNat))
    fun n => (UInt32.ofNat (n.toNat / 0x100000000), UInt32.ofNat n.toNat)

def i32 : Layout Int32 := u32.imap UInt32.toInt32 Int32.toUInt32

def i64 : Layout Int64 := u64.imap UInt64.toInt64 Int64.toUInt64

/-! ## Sequences behind their length -/

/-- Reads `n` values in a row; those already `done` stand in reverse. -/
def readMany (item : Layout α) : Nat → List α → Bytes → Except ReadError (List α × Bytes)
  | 0, done, bytes => .ok (done.reverse, bytes)
  | n + 1, done, bytes =>
    match item.read bytes with
    | .error e => .error e
    | .ok (a, rest) => readMany item n (a :: done) rest

/-- A list behind its length in two bytes. -/
def list (item : Layout α) : Layout (List α) where
  write as := u16.write (UInt16.ofNat as.length) ++ as.flatMap item.write
  read bytes :=
    match u16.read bytes with
    | .error e => .error e
    | .ok (n, rest) => item.readMany n.toNat [] rest
  Fits as := as.length < 0x10000 ∧ ∀ a ∈ as, item.Fits a

/-- Takes exactly `n` bytes off the front. -/
def takeBytes (n : Nat) (bytes : Bytes) : Except ReadError (Bytes × Bytes) :=
  let (front, rest) := bytes.splitAt n
  if front.length = n then .ok (front, rest) else .error (.shortBody n front.length)

/-- Bytes behind their number in two bytes. -/
def shortBlob : Layout Bytes where
  write body := u16.write (UInt16.ofNat body.length) ++ body
  read bytes :=
    match u16.read bytes with
    | .error e => .error e
    | .ok (n, rest) => takeBytes n.toNat rest
  Fits body := body.length < 0x10000

/-- Bytes behind their number in four bytes. -/
def blob : Layout Bytes where
  write body := u32.write (UInt32.ofNat body.length) ++ body
  read bytes :=
    match u32.read bytes with
    | .error e => .error e
    | .ok (n, rest) => takeBytes n.toNat rest
  Fits body := body.length < 0x100000000

/-- Text in modified UTF-8 behind its number of bytes. -/
def text : Layout String where
  write s := shortBlob.write (ModifiedUtf8.encode s)
  read bytes :=
    match shortBlob.read bytes with
    | .error e => .error e
    | .ok (body, rest) =>
      match ModifiedUtf8.decode body with
      | .error e => .error (.badText e)
      | .ok s => .ok (s, rest)
  Fits s := shortBlob.Fits (ModifiedUtf8.encode s)

/-! ## The law -/

/-- Reading gives back a value exactly when the bytes start with what writing it gives. -/
def Exact (layout : Layout α) : Prop :=
  ∀ bytes a rest, layout.read bytes = .ok (a, rest) ↔
    layout.Fits a ∧ bytes = layout.write a ++ rest

theorem Exact.pair {first : Layout α} {second : Layout β} (hf : first.Exact) (hs : second.Exact) :
    (first.pair second).Exact := by
  rintro bytes ⟨a, b⟩ rest
  constructor
  · intro h
    simp only [Layout.pair] at h
    split at h
    · simp at h
    · rename_i a' mid ha
      split at h
      · simp at h
      · rename_i b' rest' hb
        simp only [Except.ok.injEq, Prod.mk.injEq] at h
        obtain ⟨⟨rfl, rfl⟩, rfl⟩ := h
        obtain ⟨fa, rfl⟩ := (hf _ _ _).1 ha
        obtain ⟨fb, rfl⟩ := (hs _ _ _).1 hb
        exact ⟨⟨fa, fb⟩, by simp [Layout.pair]⟩
  · rintro ⟨⟨fa, fb⟩, rfl⟩
    have ha := (hf (first.write a ++ (second.write b ++ rest)) a _).2 ⟨fa, rfl⟩
    have hb := (hs (second.write b ++ rest) b rest).2 ⟨fb, rfl⟩
    simp [Layout.pair, ha, hb]

theorem Exact.imap {layout : Layout α} {make : α → β} {parts : β → α} (h : layout.Exact)
    (make_parts : ∀ b, make (parts b) = b) (parts_make : ∀ a, parts (make a) = a) :
    (layout.imap make parts).Exact := by
  intro bytes b rest
  constructor
  · intro hr
    simp only [Layout.imap] at hr
    split at hr
    · simp at hr
    · rename_i a mid ha
      simp only [Except.ok.injEq, Prod.mk.injEq] at hr
      obtain ⟨rfl, rfl⟩ := hr
      simpa [Layout.imap, parts_make] using (h _ _ _).1 ha
  · rintro ⟨fb, rfl⟩
    have ha := (h (layout.write (parts b) ++ rest) (parts b) rest).2 ⟨fb, rfl⟩
    simp [Layout.imap, ha, make_parts]

end Layout

end ClassSplice
