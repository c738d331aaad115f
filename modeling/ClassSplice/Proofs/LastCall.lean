import ClassSplice.Proofs.Attribute
import ClassSplice.Proofs.CallSite
import ClassSplice.Proofs.LineTable
import Mathlib.Order.Bounds.Basic

/-!
# The last call of the callee

A call site that is located is the last instruction of the method that calls the callee through the
class entry that counts. When only one entry for the class is live no call is missed: the offset is
the greatest at which the callee is called through any entry, and an error means there is no call.
-/

namespace ClassSplice.SpliceRequest

variable {request : SpliceRequest} {c : ClassFile} {code : Code} {lines : LineTable} {pool : Pool}
  {calls : List Encoding} {instructions : List Instruction} {owner : PoolIndex} {site : CallSite}

/-! ## Calls of the callee -/

/-- The instruction calls the requested callee through the class entry `owner`. -/
def CallsThrough (request : SpliceRequest) (pool : Pool) (owner : PoolIndex) (i : Instruction) :
    Prop :=
  ∃ index, IsStaticCall i.bytes index ∧
    pool.RefersTo owner request.calleeName.text request.calleeDescriptor.render index

/-- Where the requested callee is called, through any entry for its class. -/
def callOffsets (request : SpliceRequest) (pool : Pool) (instructions : List Instruction) :
    Set UInt16 :=
  {offset | ∃ i ∈ instructions, i.offset = offset ∧
    ∃ owner, pool.Denotes request.calleeOwner owner ∧ request.CallsThrough pool owner i}

theorem matches_iff_callsThrough (h : pool.Addressable) {found : List PoolIndex}
    (hf : pool.refsNamed owner request.calleeName.text request.calleeDescriptor.render = .ok found)
    {i : Instruction} :
    i.Matches (found.map Encoding.invokeStatic) ↔ request.CallsThrough pool owner i := by
  simp only [Instruction.matches_invocations_iff, Pool.mem_refsNamed_iff h hf, CallsThrough,
    and_comm]

/-- The encodings are those of the calls through one entry for the class. -/
theorem Encodes.exists_owner (h : pool.Addressable) (he : request.Encodes pool calls) :
    ∃ owner, pool.Denotes request.calleeOwner owner ∧
      ∀ i : Instruction, i.Matches calls ↔ request.CallsThrough pool owner i := by
  obtain ⟨owner, hr, hi⟩ := he
  obtain ⟨found, hf, -, rfl⟩ := Pool.invocations_eq_ok_iff.mp hi
  exact ⟨owner, (Pool.resolve_sound h hr).1, fun i => matches_iff_callsThrough h hf⟩

/-- When one entry for the class is live, the callee is only called through it. -/
theorem mem_callOffsets_iff (ho : pool.OnlyLive request.calleeOwner owner) {offset : UInt16} :
    offset ∈ request.callOffsets pool instructions ↔
      ∃ i ∈ instructions, i.offset = offset ∧ request.CallsThrough pool owner i := by
  constructor
  · rintro ⟨i, hi, hoff, other, hother, index, hb, href⟩
    obtain rfl := ho.eq_of_isLive other hother href.isLive
    exact ⟨i, hi, hoff, index, hb, href⟩
  · rintro ⟨i, hi, hoff, hcall⟩
    exact ⟨i, hi, hoff, owner, ho.denotes, hcall⟩

/-! ## A class to try it on

Its pool has two entries for `game.Dice`, one of them without references, and two references to
`roll` through the other. -/

def samplePool : Pool := .ofList
  [.utf8 "Code", .utf8 "LineNumberTable", .utf8 "run", .utf8 "game/Dice", .classRef 4, .classRef 4,
    .utf8 "roll", .utf8 "()I", .nameAndType 7 8, .methodRef 6 9 false, .methodRef 6 9 true]

def sampleCode : Code where
  maxStack := 1
  maxLocals := 1
  bytecode := [0x00, 0xB8, 0x00, 0x0A, 0xB8, 0x00, 0x0B, 0xB1]
  handlers := []
  attributes := [.encode LineTable.form 2 ⟨[⟨0, 5⟩, ⟨4, 6⟩, ⟨7, 7⟩]⟩]

def sampleClass : ClassFile where
  version := .java8
  pool := samplePool
  flags := ⟨0⟩
  thisClass := 5
  superClass := 0
  interfaces := []
  fields := []
  methods := [⟨⟨0⟩, 3, 8, [.encode Code.form 1 sampleCode]⟩]
  attributes := []

def sampleRequest : SpliceRequest where
  targetClass := ⟨"game/Dice", by decide⟩
  targetMethod := ⟨"run", by decide⟩
  calleeOwner := ⟨"game/Dice", by decide⟩
  calleeName := ⟨"roll", by decide⟩
  calleeDescriptor := ⟨[], some .int⟩
  snippet := ⟨"log", []⟩

def sampleLines : LineTable := ⟨[⟨0, 5⟩, ⟨4, 6⟩, ⟨7, 7⟩]⟩

def sampleInstructions : List Instruction :=
  [⟨0, [0x00]⟩, ⟨1, [0xB8, 0x00, 0x0A]⟩, ⟨4, [0xB8, 0x00, 0x0B]⟩, ⟨7, [0xB1]⟩]

theorem samplePool_addressable : samplePool.Addressable := by
  unfold Pool.Addressable
  decide

theorem samplePool_classNamesReadable : samplePool.ClassNamesReadable := by
  intro index name h
  have hm := (Pool.mem_classEntries_iff samplePool_addressable).mpr ⟨name, h⟩
  rw [show samplePool.classEntries = [5, 6] by decide] at hm
  obtain rfl | rfl : index = 5 ∨ index = 6 := by simpa using hm
  · exact ⟨"game.Dice", by decide +kernel⟩
  · exact ⟨"game.Dice", by decide +kernel⟩

theorem samplePool_isLive_iff {owner : PoolIndex} : samplePool.IsLive owner ↔ owner = 6 := by
  rw [Pool.isLive_iff_mem samplePool_addressable,
    show samplePool.entries.filterMap (·.2.owner?) = [6, 6] by decide]
  simp

theorem samplePool_onlyLive : samplePool.OnlyLive sampleRequest.calleeOwner 6 where
  denotes := by
    unfold Pool.Denotes
    decide +kernel
  isLive := samplePool_isLive_iff.mpr rfl
  eq_of_isLive _ _ h := samplePool_isLive_iff.mp h

theorem samplePool_refsReadable : samplePool.RefsReadable 6 := by
  intro index nameAndType onInterface h
  have hm : (index, nameAndType) ∈ samplePool.refsThrough 6 :=
    (Pool.mem_refsThrough_iff samplePool_addressable).mpr ⟨onInterface, h⟩
  rw [show samplePool.refsThrough 6 = [(10, 9), (11, 9)] by decide] at hm
  obtain ⟨-, rfl⟩ | ⟨-, rfl⟩ : (index = 10 ∧ nameAndType = 9) ∨ (index = 11 ∧ nameAndType = 9) := by
    simpa using hm
  all_goals exact ⟨("roll", "()I"), by decide +kernel⟩

theorem sample_targets : sampleRequest.Targets sampleClass sampleCode sampleLines :=
  targetCode_eq_ok_iff.mp (by decide +kernel)

theorem sample_encodes :
    sampleRequest.Encodes samplePool [.invokeStatic 10, .invokeStatic 11] := by
  have hres := samplePool_onlyLive.resolve_eq samplePool_addressable samplePool_classNamesReadable
  exact ⟨6, hres, Pool.invocations_eq_ok_iff.mpr ⟨[10, 11], by decide +kernel, by simp, rfl⟩⟩

theorem sample_locate : (sampleRequest.locate sampleClass).outcome = .ok ⟨4, 7⟩ :=
  locate_eq_ok_iff.mpr
    ⟨sampleCode, sampleLines, _, sample_targets, sample_encodes, by decide +kernel, by decide⟩

theorem sample_decodes : Decodes 0 sampleCode.bytecode sampleInstructions :=
  (Walk.ofCode_eq_ok_iff.mp (by decide +kernel)).2

/-! ## Nothing but the last call is located -/

/-- A located call site is the last call through an entry for the class of the callee, and its line
is that of an entry behind the first. -/
theorem locate_sound (h : c.pool.Addressable) (hs : (request.locate c).outcome = .ok site) :
    ∃ method code lines instructions owner call,
      c.FirstNamed request.targetMethod.text method ∧ Method.FirstCode c.pool method code ∧
        code.lineTable c.pool = .ok lines ∧
      (code.bytecode.length < 0x10000 ∧ Decodes 0 code.bytecode instructions) ∧
      (call ∈ instructions ∧ call.offset = site.offset ∧
        c.pool.Denotes request.calleeOwner owner ∧ request.CallsThrough c.pool owner call) ∧
      (∀ i ∈ instructions, site.offset < i.offset → ¬ request.CallsThrough c.pool owner i) ∧
      ∃ k entry, 1 ≤ k ∧ lines.entries[k]? = some entry ∧ entry.line = site.insertionLine := by
  obtain ⟨code, lines, calls, ⟨method, hm, hc, hl, -⟩, he, ho, hline⟩ := locate_eq_ok_iff.mp hs
  obtain ⟨owner, hd, hcalls⟩ := he.exists_owner h
  obtain ⟨instructions, hlen, hdec, ⟨call, hi, hoff, hcall⟩, hmax⟩ :=
    lastOccurrence_eq_some_iff.mp ho
  refine ⟨method, code, lines, instructions, owner, call, ClassFile.method?_eq_some_iff.mp hm,
    Method.code_eq_ok_some_iff.mp hc, hl, ⟨hlen, hdec⟩, ⟨hi, hoff, hd, (hcalls call).mp hcall⟩, ?_,
    LineTable.exists_entry_of_insertionLine hline⟩
  intro i hi hlt hthrough
  exact UInt16.not_le.mpr hlt (hmax i hi ((hcalls i).mpr hthrough))

theorem sample_locate_sound : samplePool.Addressable ∧
    (sampleRequest.locate sampleClass).outcome = .ok ⟨4, 7⟩ ∧
    ∃ method code instructions owner call, sampleClass.FirstNamed "run" method ∧
      Method.FirstCode samplePool method code ∧ Decodes 0 code.bytecode instructions ∧
      call ∈ instructions ∧ call.offset = 4 ∧
      sampleRequest.CallsThrough samplePool owner call := by
  obtain ⟨method, code, lines, instructions, owner, call, hm, hc, -, ⟨-, hdec⟩,
    ⟨hi, hoff, -, hcall⟩, -⟩ := locate_sound (c := sampleClass) samplePool_addressable sample_locate
  exact ⟨samplePool_addressable, sample_locate, method, code, instructions, owner, call, hm, hc,
    hdec, hi, hoff, hcall⟩

/-! ## No call is missed -/

theorem isGreatest_callOffsets (ho : pool.OnlyLive request.calleeOwner owner)
    (hcalls : ∀ i : Instruction, i.Matches calls ↔ request.CallsThrough pool owner i)
    (hdec : Decodes 0 code.bytecode instructions) {offset : UInt16}
    (hs : lastOccurrence code.bytecode calls = .ok (some offset)) :
    IsGreatest (request.callOffsets pool instructions) offset := by
  obtain ⟨instructions', -, hdec', ⟨call, hi, hoff, hcall⟩, hmax⟩ :=
    lastOccurrence_eq_some_iff.mp hs
  obtain rfl := hdec.unique hdec'
  refine ⟨(mem_callOffsets_iff ho).mpr ⟨call, hi, hoff, (hcalls call).mp hcall⟩, ?_⟩
  intro other hother
  obtain ⟨i, hi, rfl, hthrough⟩ := (mem_callOffsets_iff ho).mp hother
  exact hmax i hi ((hcalls i).mpr hthrough)

theorem callOffsets_eq_empty (ho : pool.OnlyLive request.calleeOwner owner)
    (hcalls : ∀ i : Instruction, i.Matches calls ↔ request.CallsThrough pool owner i)
    (hdec : Decodes 0 code.bytecode instructions)
    (hs : lastOccurrence code.bytecode calls = .ok none) :
    request.callOffsets pool instructions = ∅ := by
  obtain ⟨instructions', -, hdec', hnone⟩ := lastOccurrence_eq_none_iff.mp hs
  obtain rfl := hdec.unique hdec'
  refine Set.eq_empty_iff_forall_notMem.mpr fun offset hmem => ?_
  obtain ⟨i, hi, -, hthrough⟩ := (mem_callOffsets_iff ho).mp hmem
  exact hnone i hi ((hcalls i).mpr hthrough)

theorem exists_lastOccurrence (hlen : code.bytecode.length < 0x10000)
    (hdec : Decodes 0 code.bytecode instructions) (calls : List Encoding) :
    ∃ found, lastOccurrence code.bytecode calls = .ok found :=
  ⟨_, lastOccurrence_eq_ok_iff.mpr ⟨instructions, hlen, hdec, rfl⟩⟩

/-- What is answered for a body whose calls are known is the line behind the last of them. -/
theorem outcome_of_lastOccurrence {offset : UInt16} (ht : request.Targets c code lines)
    (he : request.Encodes c.pool calls)
    (ho : lastOccurrence code.bytecode calls = .ok (some offset)) :
    (request.locate c).outcome =
      match lines.insertionLine offset with
      | .ok line => .ok ⟨offset, line⟩
      | .error error => .error (.line error) := by
  split
  · rename_i line hl
    exact locate_eq_ok_iff.mpr ⟨code, lines, calls, ht, he, ho, hl⟩
  · rename_i error hl
    exact locate_eq_error_iff.mpr (.noLine ht he ho hl)

theorem locate_without_refs (ht : request.Targets c code lines)
    (hres : (c.pool.resolve request.calleeOwner).outcome = .ok owner)
    (hd : c.pool.Denotes request.calleeOwner owner)
    (hf : c.pool.refsNamed owner request.calleeName.text request.calleeDescriptor.render = .ok []) :
    (request.locate c).outcome = .error (.symbolNotFound (.methodRef request.calleeOwner.dotted
      request.calleeName.text request.calleeDescriptor.render)) :=
  locate_eq_error_iff.mpr
    (.noSymbol ht (.reference hres (Pool.invocations_eq_memberNotFound hf hd)))

theorem encodes_of_refs {first : PoolIndex} {others : List PoolIndex}
    (hres : (pool.resolve request.calleeOwner).outcome = .ok owner)
    (hf : pool.refsNamed owner request.calleeName.text request.calleeDescriptor.render =
      .ok (first :: others)) :
    request.Encodes pool ((first :: others).map Encoding.invokeStatic) :=
  ⟨owner, hres, Pool.invocations_eq_ok_iff.mpr ⟨first :: others, hf, by simp, rfl⟩⟩

/-- With one live entry for the class, the answer is decided at the greatest offset at which the
callee is called; without a call it says whether at least a reference to the callee exists. -/
theorem locate_complete (h : c.pool.Addressable) (ht : request.Targets c code lines)
    (hn : c.pool.ClassNamesReadable) (ho : c.pool.OnlyLive request.calleeOwner owner)
    (hr : c.pool.RefsReadable owner) (hlen : code.bytecode.length < 0x10000)
    (hdec : Decodes 0 code.bytecode instructions) :
    ((request.callOffsets c.pool instructions).Nonempty →
      ∃ offset, IsGreatest (request.callOffsets c.pool instructions) offset ∧
        (request.locate c).outcome =
          match lines.insertionLine offset with
          | .ok line => .ok ⟨offset, line⟩
          | .error error => .error (.line error)) ∧
    (request.callOffsets c.pool instructions = ∅ →
      ((∃ index, c.pool.RefersTo owner request.calleeName.text request.calleeDescriptor.render
          index) → (request.locate c).outcome = .error .instructionNotFound) ∧
      ((¬ ∃ index, c.pool.RefersTo owner request.calleeName.text
          request.calleeDescriptor.render index) →
        (request.locate c).outcome = .error (.symbolNotFound
          (.methodRef request.calleeOwner.dotted request.calleeName.text
            request.calleeDescriptor.render)))) := by
  have hres := ho.resolve_eq h hn
  obtain ⟨found, hf⟩ := Pool.exists_refsNamed h hr request.calleeName.text
    request.calleeDescriptor.render
  have hmem : ∀ index, index ∈ found ↔ c.pool.RefersTo owner request.calleeName.text
      request.calleeDescriptor.render index := fun index => Pool.mem_refsNamed_iff h hf
  cases found with
  | nil =>
      have hnone : ¬ ∃ index, c.pool.RefersTo owner request.calleeName.text
          request.calleeDescriptor.render index := by simpa using hmem
      refine ⟨?_, fun _ => ⟨fun href => absurd href hnone,
        fun _ => locate_without_refs ht hres ho.denotes hf⟩⟩
      rintro ⟨offset, hoff⟩
      obtain ⟨i, -, -, index, -, href⟩ := (mem_callOffsets_iff ho).mp hoff
      exact absurd ⟨index, href⟩ hnone
  | cons first others =>
      have hsome : ∃ index, c.pool.RefersTo owner request.calleeName.text
          request.calleeDescriptor.render index := ⟨first, (hmem first).mp (by simp)⟩
      have he := encodes_of_refs hres hf
      have hcalls : ∀ i : Instruction, i.Matches ((first :: others).map Encoding.invokeStatic) ↔
          request.CallsThrough c.pool owner i := fun i => matches_iff_callsThrough h hf
      obtain ⟨answer, hs⟩ := exists_lastOccurrence hlen hdec
        ((first :: others).map Encoding.invokeStatic)
      cases answer with
      | none =>
          have hempty := callOffsets_eq_empty ho hcalls hdec hs
          exact ⟨fun hne => absurd hempty hne.ne_empty, fun _ =>
            ⟨fun _ => locate_eq_error_iff.mpr (.noCall ht he hs), fun hno => absurd hsome hno⟩⟩
      | some offset =>
          have hgreatest := isGreatest_callOffsets ho hcalls hdec hs
          have hne : (request.callOffsets c.pool instructions).Nonempty := ⟨offset, hgreatest.1⟩
          exact ⟨fun _ => ⟨offset, hgreatest, outcome_of_lastOccurrence ht he hs⟩,
            fun hempty => absurd hempty hne.ne_empty⟩

theorem sample_locate_complete :
    (sampleRequest.callOffsets samplePool sampleInstructions).Nonempty ∧
    ∃ offset, IsGreatest (sampleRequest.callOffsets samplePool sampleInstructions) offset ∧
      (sampleRequest.locate sampleClass).outcome =
        match sampleLines.insertionLine offset with
        | .ok line => .ok ⟨offset, line⟩
        | .error error => .error (.line error) := by
  have hcomplete := locate_complete (c := sampleClass) samplePool_addressable sample_targets
    samplePool_classNamesReadable samplePool_onlyLive samplePool_refsReadable (by decide)
    sample_decodes
  have hfound : samplePool.refsNamed 6 "roll" "()I" = .ok [10, 11] := by decide +kernel
  have href : samplePool.RefersTo 6 "roll" "()I" 10 :=
    (Pool.mem_refsNamed_iff samplePool_addressable hfound).mp (by simp)
  have hcall : (sampleRequest.callOffsets samplePool sampleInstructions).Nonempty :=
    ⟨1, ⟨1, [0xB8, 0x00, 0x0A]⟩, by simp [sampleInstructions], rfl, 6, samplePool_onlyLive.denotes,
      10, ⟨0x00, 0x0A, rfl, by decide⟩, href⟩
  exact ⟨hcall, hcomplete.1 hcall⟩

end ClassSplice.SpliceRequest
