import ClassSplice.CallSite
import ClassSplice.Proofs.Callee

/-!
# The stages of locating a call site

Locating a call site goes through the method, its body, its line table, the class of the callee, its
references, the code and the line table again. `Stopped` has a rule for each way in which a stage
fails, where `Lacks` says which part of the callee the pool may lack, and each rule asks that the
stages before it succeed. Together with the one way to succeed the rules are exactly what `locate`
answers.
-/

namespace ClassSplice.SpliceRequest

variable {request : SpliceRequest} {c : ClassFile} {code : Code} {lines : LineTable} {pool : Pool}
  {calls : List Encoding} {site : CallSite} {obstacle : Obstacle}

/-! ## What a successful stage gives -/

/-- The requested method has this body, and these lines, of which there are some. -/
def Targets (request : SpliceRequest) (c : ClassFile) (code : Code) (lines : LineTable) : Prop :=
  ∃ method, c.method? request.targetMethod.text = some method ∧
    method.code c.pool = .ok (some code) ∧ code.lineTable c.pool = .ok lines ∧ lines.entries ≠ []

/-- The requested call has these encodings. -/
def Encodes (request : SpliceRequest) (pool : Pool) (calls : List Encoding) : Prop :=
  ∃ owner, (pool.resolve request.calleeOwner).outcome = .ok owner ∧
    (pool.invocations owner request.calleeName.text request.calleeDescriptor).outcome = .ok calls

theorem targetCode_eq_ok_iff :
    request.targetCode c = .ok (code, lines) ↔ request.Targets c code lines := by
  unfold targetCode Targets
  cases hm : c.method? request.targetMethod.text with
  | none => simp
  | some method =>
      simp only [bind_eq_ok_iff, mapError_eq_ok_iff, Option.some.injEq, exists_eq_left']
      constructor
      · rintro ⟨found, hc, h⟩
        cases found with
        | none => cases h
        | some found =>
            simp only [bind_eq_ok_iff, mapError_eq_ok_iff] at h
            obtain ⟨table, ht, h⟩ := h
            split at h
            · cases h
            · rename_i hne
              cases h
              exact ⟨hc, ht, by simpa [LineTable.isEmpty] using hne⟩
      · rintro ⟨hc, ht, hne⟩
        refine ⟨some code, hc, ?_⟩
        simp [ht, LineTable.isEmpty, hne]

theorem calls_eq_ok_iff :
    (request.calls pool).outcome = .ok calls ↔ request.Encodes pool calls := by
  simp [SpliceRequest.calls, Encodes, Logged.outcome_bind]

theorem callSiteIn_eq_ok_iff {bytecode : Bytes} :
    callSiteIn bytecode lines calls = .ok site ↔
      lastOccurrence bytecode calls = .ok (some site.offset) ∧
        lines.insertionLine site.offset = .ok site.insertionLine := by
  simp only [callSiteIn, bind_eq_ok_iff, mapError_eq_ok_iff]
  constructor
  · rintro ⟨found, hs, h⟩
    cases found with
    | none => cases h
    | some offset =>
        simp only [bind_eq_ok_iff, mapError_eq_ok_iff, pure, Except.pure, Except.ok.injEq] at h
        obtain ⟨line, hl, rfl⟩ := h
        exact ⟨hs, hl⟩
  · rintro ⟨hs, hl⟩
    exact ⟨_, hs, by simp [hl, pure, Except.pure]⟩

theorem locate_outcome :
    (request.locate c).outcome =
      request.targetCode c >>= fun target => (request.calls c.pool).outcome >>= fun calls =>
        callSiteIn target.1.bytecode target.2 calls := by
  simp [locate, Logged.outcome_bind]

/-- A call site is found when all stages succeed. -/
theorem locate_eq_ok_iff :
    (request.locate c).outcome = .ok site ↔
      ∃ code lines calls, request.Targets c code lines ∧ request.Encodes c.pool calls ∧
        lastOccurrence code.bytecode calls = .ok (some site.offset) ∧
        lines.insertionLine site.offset = .ok site.insertionLine := by
  simp only [locate_outcome, bind_eq_ok_iff, Prod.exists, targetCode_eq_ok_iff, calls_eq_ok_iff,
    callSiteIn_eq_ok_iff, exists_and_left]

/-! ## Where it stops -/

/-- The part of the callee that the search of the pool stops at, and the words that say so. -/
inductive Lacks (request : SpliceRequest) (pool : Pool) : MissingSymbol → String → Prop
  | entry {name : String}
      (hr : (pool.resolve request.calleeOwner).outcome = .error (.noCandidates name)) :
      Lacks request pool (.classEntry name) ("no class entry for " ++ name)
  | liveEntry {name : String} {count : Nat}
      (hr : (pool.resolve request.calleeOwner).outcome = .error (.noLiveCandidate name count)) :
      Lacks request pool (.liveClassEntry name count)
        ("none of the " ++ toString count ++ " class entries for " ++ name ++ " is referenced")
  | reference {owner : PoolIndex} {ownerName name descriptor : String}
      (hr : (pool.resolve request.calleeOwner).outcome = .ok owner)
      (hi : (pool.invocations owner request.calleeName.text request.calleeDescriptor).outcome =
        .error (.memberNotFound ownerName name descriptor)) :
      Lacks request pool (.methodRef ownerName name descriptor)
        ("no method reference for " ++ ownerName ++ "." ++ name ++ descriptor)

/-- The first stage that fails, with the reason it gives. -/
inductive Stopped (request : SpliceRequest) (c : ClassFile) : Obstacle → Prop
  | noMethod (hm : c.method? request.targetMethod.text = none) :
      Stopped request c (.methodNotFound request.targetMethod)
  | badCode {method : Method} {fault : ClassFault}
      (hm : c.method? request.targetMethod.text = some method)
      (hc : method.code c.pool = .error fault) : Stopped request c (.malformed fault)
  | noCode {method : Method} (hm : c.method? request.targetMethod.text = some method)
      (hc : method.code c.pool = .ok none) : Stopped request c .missingCode
  | badLines {method : Method} {code : Code} {fault : ClassFault}
      (hm : c.method? request.targetMethod.text = some method)
      (hc : method.code c.pool = .ok (some code))
      (hl : code.lineTable c.pool = .error fault) : Stopped request c (.malformed fault)
  | noLines {method : Method} {code : Code}
      (hm : c.method? request.targetMethod.text = some method)
      (hc : method.code c.pool = .ok (some code))
      (hl : code.lineTable c.pool = .ok ⟨[]⟩) : Stopped request c .missingLineNumbers
  | noSymbol {code : Code} {lines : LineTable} {symbol : MissingSymbol} {text : String}
      (ht : request.Targets c code lines) (hs : request.Lacks c.pool symbol text) :
      Stopped request c (.symbolNotFound symbol)
  | badEntry {code : Code} {lines : LineTable} {fault : ClassFault}
      (ht : request.Targets c code lines)
      (hr : (c.pool.resolve request.calleeOwner).outcome = .error (.malformed fault)) :
      Stopped request c (.malformed fault)
  | badReference {code : Code} {lines : LineTable} {owner : PoolIndex} {fault : ClassFault}
      (ht : request.Targets c code lines)
      (hr : (c.pool.resolve request.calleeOwner).outcome = .ok owner)
      (hi : (c.pool.invocations owner request.calleeName.text request.calleeDescriptor).outcome =
        .error (.malformed fault)) : Stopped request c (.malformed fault)
  | badBytecode {code : Code} {lines : LineTable} {calls : List Encoding} {error : ScanError}
      (ht : request.Targets c code lines) (he : request.Encodes c.pool calls)
      (hs : lastOccurrence code.bytecode calls = .error error) : Stopped request c (.bytecode error)
  | noCall {code : Code} {lines : LineTable} {calls : List Encoding}
      (ht : request.Targets c code lines) (he : request.Encodes c.pool calls)
      (hs : lastOccurrence code.bytecode calls = .ok none) : Stopped request c .instructionNotFound
  | noLine {code : Code} {lines : LineTable} {calls : List Encoding} {offset : UInt16}
      {error : LineError} (ht : request.Targets c code lines) (he : request.Encodes c.pool calls)
      (hs : lastOccurrence code.bytecode calls = .ok (some offset))
      (hi : lines.insertionLine offset = .error error) : Stopped request c (.line error)

theorem calls_of_resolve_error {error : ResolveError}
    (hr : (pool.resolve request.calleeOwner).outcome = .error error) :
    (request.calls pool).outcome = .error (.ofResolveError error) := by
  simp [SpliceRequest.calls, Logged.outcome_bind, hr]

theorem calls_of_invocations_error {owner : PoolIndex} {error : CalleeError}
    (hr : (pool.resolve request.calleeOwner).outcome = .ok owner)
    (hi : (pool.invocations owner request.calleeName.text request.calleeDescriptor).outcome =
      .error error) : (request.calls pool).outcome = .error (.ofCalleeError error) := by
  simp [SpliceRequest.calls, Logged.outcome_bind, hr, hi]

theorem Lacks.calls_eq {symbol : MissingSymbol} {text : String}
    (h : request.Lacks pool symbol text) :
    (request.calls pool).outcome = .error (.symbolNotFound symbol) := by
  cases h with
  | entry hr => exact calls_of_resolve_error hr
  | liveEntry hr => exact calls_of_resolve_error hr
  | reference hr hi => exact calls_of_invocations_error hr hi

theorem Lacks.message_eq {symbol : MissingSymbol} {text : String}
    (h : request.Lacks pool symbol text) : symbol.message = text := by
  cases h <;> rfl

/-- A request that stops at a missing symbol says which one in the words for it. -/
theorem Stopped.lacks {symbol : MissingSymbol} (h : request.Stopped c (.symbolNotFound symbol)) :
    request.Lacks c.pool symbol symbol.message := by
  cases h with
  | noSymbol ht hs => exact hs.message_eq.symm ▸ hs

theorem Stopped.of_targetCode (h : request.targetCode c = .error obstacle) :
    request.Stopped c obstacle := by
  unfold targetCode at h
  cases hm : c.method? request.targetMethod.text with
  | none =>
      simp only [hm, Except.error.injEq] at h
      exact h ▸ .noMethod hm
  | some method =>
      simp only [hm, bind_eq_error_iff, mapError_eq_ok_iff, mapError_eq_error_iff] at h
      obtain ⟨fault, hc, rfl⟩ | ⟨found, hc, h⟩ := h
      · exact .badCode hm hc
      · cases found with
        | none =>
            cases h
            exact .noCode hm hc
        | some code =>
            simp only [bind_eq_error_iff, mapError_eq_ok_iff, mapError_eq_error_iff] at h
            obtain ⟨fault, hl, rfl⟩ | ⟨⟨entries⟩, hl, h⟩ := h
            · exact .badLines hm hc hl
            · split at h
              · rename_i he
                cases h
                obtain rfl : entries = [] := by simpa [LineTable.isEmpty] using he
                exact .noLines hm hc hl
              · cases h

theorem Stopped.of_calls (ht : request.Targets c code lines)
    (h : (request.calls c.pool).outcome = .error obstacle) : request.Stopped c obstacle := by
  simp only [SpliceRequest.calls, Logged.outcome_bind, Logged.outcome_mapError, bind_eq_error_iff,
    mapError_eq_ok_iff, mapError_eq_error_iff] at h
  obtain ⟨error, hr, rfl⟩ | ⟨owner, hr, error, hi, rfl⟩ := h
  · cases error with
    | noCandidates name => exact .noSymbol ht (.entry hr)
    | noLiveCandidate name count => exact .noSymbol ht (.liveEntry hr)
    | malformed fault => exact .badEntry ht hr
  · cases error with
    | memberNotFound ownerName name descriptor => exact .noSymbol ht (.reference hr hi)
    | malformed fault => exact .badReference ht hr hi

theorem Stopped.of_callSiteIn (ht : request.Targets c code lines)
    (he : request.Encodes c.pool calls)
    (h : callSiteIn code.bytecode lines calls = .error obstacle) : request.Stopped c obstacle := by
  simp only [callSiteIn, bind_eq_error_iff, mapError_eq_ok_iff, mapError_eq_error_iff] at h
  obtain ⟨error, hs, rfl⟩ | ⟨found, hs, h⟩ := h
  · exact .badBytecode ht he hs
  · cases found with
    | none =>
        cases h
        exact .noCall ht he hs
    | some offset =>
        simp only [bind_eq_error_iff, mapError_eq_error_iff, pure, Except.pure, reduceCtorEq,
          and_false, exists_false, or_false] at h
        obtain ⟨error, hi, rfl⟩ := h
        exact .noLine ht he hs hi

/-- `locate` stops with an obstacle exactly when some rule gives it. -/
theorem locate_eq_error_iff :
    (request.locate c).outcome = .error obstacle ↔ request.Stopped c obstacle := by
  rw [locate_outcome]
  constructor
  · intro h
    obtain h | ⟨⟨code, lines⟩, ht, h⟩ := bind_eq_error_iff.mp h
    · exact .of_targetCode h
    · have ht := targetCode_eq_ok_iff.mp ht
      obtain h | ⟨calls, he, h⟩ := bind_eq_error_iff.mp h
      · exact .of_calls ht h
      · exact .of_callSiteIn ht (calls_eq_ok_iff.mp he) h
  · intro h
    cases h with
    | noMethod hm => simp [targetCode, hm]
    | badCode hm hc => simp [targetCode, hm, hc]
    | noCode hm hc => simp [targetCode, hm, hc]
    | badLines hm hc hl => simp [targetCode, hm, hc, hl]
    | noLines hm hc hl => simp [targetCode, hm, hc, hl, LineTable.isEmpty]
    | noSymbol ht hs => simp [targetCode_eq_ok_iff.mpr ht, hs.calls_eq]
    | badEntry ht hr =>
        simp [targetCode_eq_ok_iff.mpr ht, calls_of_resolve_error hr, Obstacle.ofResolveError]
    | badReference ht hr hi =>
        simp [targetCode_eq_ok_iff.mpr ht, calls_of_invocations_error hr hi,
          Obstacle.ofCalleeError]
    | badBytecode ht he hs =>
        simp [targetCode_eq_ok_iff.mpr ht, calls_eq_ok_iff.mpr he, callSiteIn, hs]
    | noCall ht he hs =>
        simp [targetCode_eq_ok_iff.mpr ht, calls_eq_ok_iff.mpr he, callSiteIn, hs]
    | noLine ht he hs hi =>
        simp [targetCode_eq_ok_iff.mpr ht, calls_eq_ok_iff.mpr he, callSiteIn, hs, hi,
          Except.mapError, Functor.map, Except.map]

end ClassSplice.SpliceRequest
