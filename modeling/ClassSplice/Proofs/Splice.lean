import ClassSplice.Proofs.CallSite
import ClassSplice.Splice

/-!
# What becomes of a request

A request stops before the weaver, is rejected by it or is carried out, and what happens is decided
by the class, the call site and the weaver in this order. The last record of the log says which it
was.
-/

namespace ClassSplice

namespace SpliceRequest

variable {request : SpliceRequest} {load : ClassName → Except LoadError ClassFile} {c : ClassFile}
  {site : CallSite} {obstacle : Obstacle} {ω : Type} [Weaver ω] {weaver woven : ω}

/-! ## Before the weaver -/

/-- The request ends with this obstacle, whatever weaver it is carried out with: the weaver is left
as it was, and the answer and the log are the same for all weavers. -/
def StopsWith (request : SpliceRequest) (load : ClassName → Except LoadError ClassFile)
    (obstacle : Obstacle) : Prop :=
  ∃ log, ∀ {ω : Type} [Weaver ω] (weaver : ω),
    request.splice load weaver = ⟨.error obstacle, weaver, log⟩

theorem StopsWith.outcome (h : request.StopsWith load obstacle) (weaver : ω) :
    (request.splice load weaver).outcome = .error obstacle := by
  obtain ⟨log, h⟩ := h
  rw [h weaver]

theorem splice_of_weave_error {log : List LogRecord}
    (h : request.weave load weaver = ⟨.error obstacle, log⟩) :
    request.splice load weaver =
      ⟨.error obstacle, weaver, log ++ [request.record (.error obstacle)]⟩ := by
  simp [splice, h, Except.map]

theorem splice_of_weave_ok {line : UInt16} {log : List LogRecord}
    (h : request.weave load weaver = ⟨.ok (line, woven), log⟩) :
    request.splice load weaver = ⟨.ok line, woven, log ++ [request.record (.ok line)]⟩ := by
  simp [splice, h, Except.map]

theorem stopsWith_of_load {error : LoadError} (h : load request.targetClass = .error error) :
    request.StopsWith load (.classUnavailable error) := by
  refine ⟨[] ++ [request.record (.error (.classUnavailable error))], fun weaver => ?_⟩
  refine splice_of_weave_error ?_
  unfold weave
  exact Logged.bind_of_error (by simp [h])

theorem stopsWith_of_locate (hl : load request.targetClass = .ok c)
    (h : (request.locate c).outcome = .error obstacle) : request.StopsWith load obstacle := by
  refine ⟨([] ++ (request.locate c).log) ++ [request.record (.error obstacle)], fun weaver => ?_⟩
  refine splice_of_weave_error ?_
  unfold weave
  rw [Logged.bind_of_ok (a := c) (by simp [hl]), Logged.bind_of_error h]
  rfl

/-! ## The weaver -/

theorem weave_of_locate (weaver : ω) (hl : load request.targetClass = .ok c)
    (h : (request.locate c).outcome = .ok site) :
    request.weave load weaver =
      ⟨((Weaver.insert weaver (request.insertionAt site.insertionLine)).mapError
        .weaveRejected).map (site.insertionLine, ·), (request.locate c).log⟩ := by
  unfold weave
  rw [Logged.bind_of_ok (a := c) (by simp [hl]), Logged.bind_of_ok h]
  cases Weaver.insert weaver (request.insertionAt site.insertionLine) with
  | error message =>
      rw [Logged.bind_of_error (e := .weaveRejected message) (by simp)]
      simp [Logged.ofExcept, Except.mapError, Except.map]
  | ok woven =>
      rw [Logged.bind_of_ok (a := woven) (by simp)]
      simp [Logged.ofExcept, Except.mapError, Except.map]

theorem splice_of_insert_ok (hl : load request.targetClass = .ok c)
    (h : (request.locate c).outcome = .ok site)
    (hw : Weaver.insert weaver (request.insertionAt site.insertionLine) = .ok woven) :
    (request.splice load weaver).outcome = .ok site.insertionLine ∧
      (request.splice load weaver).weaver = woven := by
  have hweave := weave_of_locate weaver hl h
  rw [hw] at hweave
  rw [splice_of_weave_ok hweave]
  exact ⟨rfl, rfl⟩

theorem splice_of_insert_error {message : String} (hl : load request.targetClass = .ok c)
    (h : (request.locate c).outcome = .ok site)
    (hw : Weaver.insert weaver (request.insertionAt site.insertionLine) = .error message) :
    (request.splice load weaver).outcome = .error (.weaveRejected message) ∧
      (request.splice load weaver).weaver = weaver := by
  have hweave := weave_of_locate weaver hl h
  rw [hw] at hweave
  rw [splice_of_weave_error hweave]
  exact ⟨rfl, rfl⟩

/-! ## All cases -/

/-- The line or the obstacle that a request ends with, and the weaver after it. -/
inductive Ends (request : SpliceRequest) (load : ClassName → Except LoadError ClassFile)
    (weaver : ω) : Except Obstacle UInt16 → ω → Prop
  | unavailable {error : LoadError} (hl : load request.targetClass = .error error) :
      Ends request load weaver (.error (.classUnavailable error)) weaver
  | stopped {c : ClassFile} {obstacle : Obstacle} (hl : load request.targetClass = .ok c)
      (hs : request.Stopped c obstacle) : Ends request load weaver (.error obstacle) weaver
  | rejected {c : ClassFile} {site : CallSite} {message : String}
      (hl : load request.targetClass = .ok c) (hs : (request.locate c).outcome = .ok site)
      (hw : Weaver.insert weaver (request.insertionAt site.insertionLine) = .error message) :
      Ends request load weaver (.error (.weaveRejected message)) weaver
  | carriedOut {c : ClassFile} {site : CallSite} {woven : ω}
      (hl : load request.targetClass = .ok c) (hs : (request.locate c).outcome = .ok site)
      (hw : Weaver.insert weaver (request.insertionAt site.insertionLine) = .ok woven) :
      Ends request load weaver (.ok site.insertionLine) woven

theorem splice_ends (request : SpliceRequest) (load : ClassName → Except LoadError ClassFile)
    (weaver : ω) : request.Ends load weaver (request.splice load weaver).outcome
      (request.splice load weaver).weaver := by
  cases hl : load request.targetClass with
  | error error =>
      obtain ⟨log, h⟩ := stopsWith_of_load hl
      rw [h weaver]
      exact .unavailable hl
  | ok c =>
      cases hs : (request.locate c).outcome with
      | error obstacle =>
          obtain ⟨log, h⟩ := stopsWith_of_locate hl hs
          rw [h weaver]
          exact .stopped hl (locate_eq_error_iff.mp hs)
      | ok site =>
          cases hw : Weaver.insert weaver (request.insertionAt site.insertionLine) with
          | error message =>
              obtain ⟨ho, hr⟩ := splice_of_insert_error hl hs hw
              rw [ho, hr]
              exact .rejected hl hs hw
          | ok woven =>
              obtain ⟨ho, hr⟩ := splice_of_insert_ok hl hs hw
              rw [ho, hr]
              exact .carriedOut hl hs hw

theorem exists_ends {outcome : Except Obstacle UInt16}
    (h : (request.splice load weaver).outcome = outcome) :
    ∃ woven, request.Ends load weaver outcome woven :=
  ⟨_, h ▸ request.splice_ends load weaver⟩

/-! ## The log -/

theorem getLast?_log :
    (request.splice load weaver).log.getLast? =
      some (request.record (request.splice load weaver).outcome) := by
  simp [splice]

theorem record_level (outcome : Except Obstacle UInt16) :
    (request.record outcome).level = match outcome with | .ok _ => .info | .error _ => .warn := by
  cases outcome <;> rfl

end SpliceRequest

end ClassSplice
