import ClassSplice.Proofs.LastCall
import ClassSplice.Proofs.Splice
import ClassSplice.Proofs.Store

/-!
# Sessions

A store of classes is filled and requests are carried out against it, in any order and with one
recorder for all of them. A request meets what was stored before it, whatever became of the requests
in between, and the recorder ends up with one insertion for each request that was carried out.
-/

namespace ClassSplice

/-! ## Runs -/

inductive Step
  | insert (name : ClassName) (bytes : Bytes)
  | splice (request : SpliceRequest)

structure Session where
  store : ClassStore
  recorder : Recorder

/-- A request, the store that it met and what came of it. -/
structure Event where
  store : ClassStore
  request : SpliceRequest
  result : SpliceResult Recorder

namespace Session

def step (s : Session) : Step → Session × List Event
  | .insert name bytes => ({ s with store := s.store.insert name bytes }, [])
  | .splice request =>
    let result := request.splice s.store.load s.recorder
    ({ s with recorder := result.weaver }, [⟨s.store, request, result⟩])

/-- The session after some steps, and what happened on the way. -/
def run (s : Session) : List Step → Session × List Event
  | [] => (s, [])
  | step :: steps =>
    let (next, events) := s.step step
    let (last, more) := next.run steps
    (last, events ++ more)

end Session

/-! ## What a run depends on -/

namespace ClassStore

/-- The store after the insertions among the steps. -/
def after (store : ClassStore) : List Step → ClassStore
  | [] => store
  | .insert name bytes :: steps => (store.insert name bytes).after steps
  | .splice _ :: steps => store.after steps

/-- The requests among the steps, each with the store after the insertions before it. -/
def met (store : ClassStore) : List Step → List (ClassStore × SpliceRequest)
  | [] => []
  | .insert name bytes :: steps => (store.insert name bytes).met steps
  | .splice request :: steps => (store, request) :: store.met steps

end ClassStore

namespace Event

/-- What the recorder gets from a request: an insertion if it was carried out, else nothing. -/
def insertions (e : Event) : List Insertion :=
  match e.result.outcome with
  | .ok line =>
    [⟨e.request.targetClass, e.request.targetMethod, line, e.request.snippet.render⟩]
  | .error _ => []

/-- The event is accounted for by the class, the call site and the message of the recorder. -/
structure Explained (e : Event) (rejectWith : Option String) : Prop where
  patched : ∀ line, e.result.outcome = .ok line ↔
    ∃ c site, e.store.load e.request.targetClass = .ok c ∧
      (e.request.locate c).outcome = .ok site ∧ site.insertionLine = line ∧ rejectWith = none
  rejected : ∀ c site message, e.store.load e.request.targetClass = .ok c →
    (e.request.locate c).outcome = .ok site → rejectWith = some message →
      e.result.outcome = .error (.weaveRejected message)
  unavailable : ∀ error, e.store.load e.request.targetClass = .error error →
    e.result.outcome = .error (.classUnavailable error) ∧
      e.request.StopsWith e.store.load (.classUnavailable error)
  stopped : ∀ c obstacle, e.store.load e.request.targetClass = .ok c →
    e.request.Stopped c obstacle →
      e.result.outcome = .error obstacle ∧ e.request.StopsWith e.store.load obstacle
  /-- What is missing of the callee is said in the words for it. -/
  symbol : ∀ c symbol, e.store.load e.request.targetClass = .ok c →
    e.result.outcome = .error (.symbolNotFound symbol) →
      e.request.Lacks c.pool symbol symbol.message
  record : ∃ last, e.result.log.getLast? = some last ∧
    last.level = match e.result.outcome with | .ok _ => .info | .error _ => .warn

/-- Nothing but the request, the bytes of its class and the message of the recorder counts. -/
theorem Explained.outcome_eq {e e' : Event} {rejectWith : Option String}
    (h : e.Explained rejectWith) (h' : e'.Explained rejectWith) (hr : e'.request = e.request)
    (hb : e'.store.bytes? e.request.targetClass = e.store.bytes? e.request.targetClass) :
    e'.result.outcome = e.result.outcome := by
  have hload : e'.store.load e'.request.targetClass = e.store.load e.request.targetClass := by
    rw [hr, ClassStore.load, ClassStore.load, hb]
  cases hl : e.store.load e.request.targetClass with
  | error error =>
      exact (h'.unavailable error (hload.trans hl)).1.trans (h.unavailable error hl).1.symm
  | ok c =>
      cases hs : (e.request.locate c).outcome with
      | error obstacle =>
          have hstop := SpliceRequest.locate_eq_error_iff.mp hs
          exact (h'.stopped c obstacle (hload.trans hl) (hr ▸ hstop)).1.trans
            (h.stopped c obstacle hl hstop).1.symm
      | ok site =>
          cases hm : rejectWith with
          | some message =>
              exact (h'.rejected c site message (hload.trans hl) (hr ▸ hs) hm).trans
                (h.rejected c site message hl hs hm).symm
          | none =>
              exact ((h'.patched _).mpr ⟨c, site, hload.trans hl, hr ▸ hs, rfl, hm⟩).trans
                ((h.patched _).mpr ⟨c, site, hl, hs, rfl, hm⟩).symm

end Event

/-! ## One request -/

namespace Recorder

variable {r woven : Recorder} {i : Insertion}

theorem insert_eq_ok_iff : Weaver.insert r i = .ok woven ↔
    r.rejectWith = none ∧ woven = ⟨r.insertions ++ [i], none⟩ := by
  obtain ⟨insertions, rejectWith⟩ := r
  cases rejectWith <;> simp [Weaver.insert, eq_comm]

theorem insert_eq_error_iff {message : String} :
    Weaver.insert r i = .error message ↔ r.rejectWith = some message := by
  obtain ⟨insertions, rejectWith⟩ := r
  cases rejectWith <;> simp [Weaver.insert]

end Recorder

namespace Session

/-- What carrying out a request in a session adds to what happened. -/
def event (s : Session) (request : SpliceRequest) : Event :=
  ⟨s.store, request, request.splice s.store.load s.recorder⟩

theorem explained_event (s : Session) (request : SpliceRequest) :
    (s.event request).Explained s.recorder.rejectWith where
  patched line := by
    constructor
    · intro h
      obtain ⟨woven, hends⟩ := SpliceRequest.exists_ends h
      cases hends with
      | carriedOut hl hs hw => exact ⟨_, _, hl, hs, rfl, (Recorder.insert_eq_ok_iff.mp hw).1⟩
    · rintro ⟨c, site, hl, hs, rfl, hr⟩
      exact (SpliceRequest.splice_of_insert_ok hl hs
        (Recorder.insert_eq_ok_iff.mpr ⟨hr, rfl⟩)).1
  rejected c site message hl hs hr :=
    (SpliceRequest.splice_of_insert_error hl hs (Recorder.insert_eq_error_iff.mpr hr)).1
  unavailable error hl := by
    have hstops := SpliceRequest.stopsWith_of_load hl
    exact ⟨hstops.outcome s.recorder, hstops⟩
  stopped c obstacle hl hs := by
    have hstops := SpliceRequest.stopsWith_of_locate hl (SpliceRequest.locate_eq_error_iff.mpr hs)
    exact ⟨hstops.outcome s.recorder, hstops⟩
  symbol c symbol hl h := by
    obtain ⟨woven, hends⟩ := SpliceRequest.exists_ends h
    cases hends with
    | stopped hl' hs =>
        obtain rfl := Except.ok.inj (hl'.symm.trans hl)
        exact hs.lacks
  record := ⟨_, SpliceRequest.getLast?_log, SpliceRequest.record_level _⟩

theorem recorder_splice (s : Session) (request : SpliceRequest) :
    (request.splice s.store.load s.recorder).weaver =
      ⟨s.recorder.insertions ++ (s.event request).insertions, s.recorder.rejectWith⟩ := by
  have hends := request.splice_ends s.store.load s.recorder
  simp only [Event.insertions, event]
  generalize (request.splice s.store.load s.recorder).outcome = outcome at hends ⊢
  generalize (request.splice s.store.load s.recorder).weaver = woven at hends ⊢
  cases hends with
  | unavailable => simp
  | stopped => simp
  | rejected => simp
  | carriedOut hl hs hw =>
      obtain ⟨hr, rfl⟩ := Recorder.insert_eq_ok_iff.mp hw
      simp [hr, SpliceRequest.insertionAt]

/-! ## Steps -/

/-- The session after a request: the store is the same, the recorder has its insertions as well. -/
def afterSplice (s : Session) (request : SpliceRequest) : Session :=
  ⟨s.store, s.recorder.insertions ++ (s.event request).insertions, s.recorder.rejectWith⟩

theorem step_splice (s : Session) (request : SpliceRequest) :
    s.step (.splice request) = (s.afterSplice request, [s.event request]) := by
  simp only [step, recorder_splice]
  rfl

theorem run_insert (s : Session) (name : ClassName) (bytes : Bytes) (steps : List Step) :
    s.run (.insert name bytes :: steps) =
      (⟨s.store.insert name bytes, s.recorder⟩ : Session).run steps := rfl

theorem run_splice (s : Session) (request : SpliceRequest) (steps : List Step) :
    s.run (.splice request :: steps) =
      (((s.afterSplice request).run steps).1,
        s.event request :: ((s.afterSplice request).run steps).2) := by
  simp only [run, step_splice, List.singleton_append]

/-! ## Runs -/

theorem run_session (s : Session) (steps : List Step) :
    (s.run steps).1 = ⟨s.store.after steps, s.recorder.insertions ++
      (s.run steps).2.flatMap Event.insertions, s.recorder.rejectWith⟩ := by
  induction steps generalizing s with
  | nil => simp [run, ClassStore.after]
  | cons step steps ih =>
      cases step with
      | insert name bytes => rw [run_insert, ih, ClassStore.after]
      | splice request =>
          simp only [run_splice, ih, ClassStore.after, List.flatMap_cons]
          simp only [afterSplice, List.append_assoc]

theorem run_met (s : Session) (steps : List Step) :
    (s.run steps).2.map (fun e => (e.store, e.request)) = s.store.met steps := by
  induction steps generalizing s with
  | nil => rfl
  | cons step steps ih =>
      cases step with
      | insert name bytes => rw [run_insert, ih, ClassStore.met]
      | splice request =>
          rw [run_splice, List.map_cons, ih]
          rfl

theorem run_explained (s : Session) (steps : List Step) :
    ∀ e ∈ (s.run steps).2, e.Explained s.recorder.rejectWith := by
  induction steps generalizing s with
  | nil => simp [run]
  | cons step steps ih =>
      cases step with
      | insert name bytes =>
          rw [run_insert]
          exact ih _
      | splice request =>
          rw [run_splice]
          exact List.forall_mem_cons.mpr ⟨explained_event s request, ih _⟩

/-- A run changes the store by the insertions alone and the recorder by the requests that were
carried out. Each event has its own explanation, which leaves no room for the requests before it. -/
theorem run_sound (s : Session) (steps : List Step) :
    (s.run steps).1.store = s.store.after steps ∧
    (s.run steps).1.recorder.rejectWith = s.recorder.rejectWith ∧
    (s.run steps).1.recorder.insertions =
      s.recorder.insertions ++ (s.run steps).2.flatMap Event.insertions ∧
    (s.run steps).2.map (fun e => (e.store, e.request)) = s.store.met steps ∧
    (∀ e ∈ (s.run steps).2, e.Explained s.recorder.rejectWith) ∧
    ∀ (s' : Session) (steps' : List Step), s'.recorder.rejectWith = s.recorder.rejectWith →
      ∀ e ∈ (s.run steps).2, ∀ e' ∈ (s'.run steps').2, e'.request = e.request →
        (∀ name, e'.store.bytes? name = e.store.bytes? name) →
        e'.result.outcome = e.result.outcome := by
  have hsession := run_session s steps
  refine ⟨congrArg (·.store) hsession, congrArg (·.recorder.rejectWith) hsession,
    congrArg (·.recorder.insertions) hsession, run_met s steps, run_explained s steps, ?_⟩
  intro s' steps' hreject e he e' he' hr hb
  have h := run_explained s steps e he
  have h' := run_explained s' steps' e' he'
  exact h.outcome_eq (hreject ▸ h') hr (hb _)

/-! ## A session to try it on

A request is carried out before its class is stored and twice after it. In between another one asks
for a callee whose class has no entry in the pool. -/

def sampleLogging : SpliceRequest :=
  SpliceRequest.sampleRequest.withSnippet ⟨"log", ["$0", "power"]⟩

def sampleStray : SpliceRequest := { sampleLogging with calleeOwner := ⟨"game/Card", by decide⟩ }

def sampleSteps : List Step :=
  [.splice sampleLogging,
    .insert sampleLogging.targetClass SpliceRequest.sampleClass.write,
    .splice sampleLogging, .splice sampleStray, .splice sampleLogging]

/-- The store that the later requests meet. -/
def sampleStore : ClassStore :=
  ClassStore.empty.insert sampleLogging.targetClass SpliceRequest.sampleClass.write

theorem sampleStore_load :
    sampleStore.load sampleLogging.targetClass = .ok SpliceRequest.sampleClass :=
  ClassStore.load_insert_write (by decide +kernel)

theorem sampleStray_stopped :
    sampleStray.Stopped SpliceRequest.sampleClass (.symbolNotFound (.classEntry "game.Card")) := by
  have hc : SpliceRequest.samplePool.candidates sampleStray.calleeOwner = .ok [] := by
    decide +kernel
  have hname : sampleStray.calleeOwner.dotted = "game.Card" := by decide +kernel
  refine .noSymbol SpliceRequest.sample_targets (.entry ?_)
  show (SpliceRequest.samplePool.resolve _).outcome = _
  simp [Pool.resolve, Logged.outcome_bind, hc, hname]

/-- What a recorder that may reject makes of the sample request: its answer, and what it gets. -/
def sampleReception : Option String → Except Obstacle UInt16 × List Insertion
  | none => (.ok 7, [⟨sampleLogging.targetClass, sampleLogging.targetMethod, 7, "log($0, power);"⟩])
  | some message => (.error (.weaveRejected message), [])

theorem reception_of_sampleLogging {e : Event} {rejectWith : Option String}
    (h : e.Explained rejectWith) (hm : (e.store, e.request) = (sampleStore, sampleLogging)) :
    (e.result.outcome, e.insertions) = sampleReception rejectWith := by
  obtain ⟨hs, hq⟩ := Prod.mk.inj hm
  have hl : e.store.load e.request.targetClass = .ok SpliceRequest.sampleClass := by
    rw [hs, hq, sampleStore_load]
  have hc : (e.request.locate SpliceRequest.sampleClass).outcome = .ok ⟨4, 7⟩ := by
    rw [hq]
    exact SpliceRequest.sample_locate
  cases hr : rejectWith with
  | none =>
      have ho := (h.patched 7).mpr ⟨_, _, hl, hc, rfl, hr⟩
      have hsnippet : sampleLogging.snippet.render = "log($0, power);" := by decide +kernel
      simp only [Event.insertions, ho, hq, hsnippet, sampleReception]
  | some message =>
      have ho := h.rejected _ _ message hl hc hr
      simp only [Event.insertions, ho, sampleReception]

theorem receptions_of_met {events : List Event} {rejectWith : Option String}
    (hm : events.map (fun e => (e.store, e.request)) = ClassStore.empty.met sampleSteps)
    (he : ∀ e ∈ events, e.Explained rejectWith) :
    events.map (fun e => (e.result.outcome, e.insertions)) =
      [(.error (.classUnavailable (.notFound sampleLogging.targetClass)), []),
        sampleReception rejectWith, (.error (.symbolNotFound (.classEntry "game.Card")), []),
        sampleReception rejectWith] := by
  obtain ⟨first, events, rfl, hfirst, hm⟩ := List.map_eq_cons_iff.mp hm
  obtain ⟨second, events, rfl, hsecond, hm⟩ := List.map_eq_cons_iff.mp hm
  obtain ⟨third, events, rfl, hthird, hm⟩ := List.map_eq_cons_iff.mp hm
  obtain ⟨fourth, events, rfl, hfourth, hm⟩ := List.map_eq_cons_iff.mp hm
  obtain rfl := List.map_eq_nil_iff.mp hm
  simp only [List.forall_mem_cons] at he
  obtain ⟨efirst, esecond, ethird, efourth, -⟩ := he
  have ofirst : first.result.outcome =
      .error (.classUnavailable (.notFound sampleLogging.targetClass)) := by
    obtain ⟨store, request, result⟩ := first
    cases hfirst
    exact (efirst.unavailable _ rfl).1
  have othird : third.result.outcome = .error (.symbolNotFound (.classEntry "game.Card")) := by
    obtain ⟨store, request, result⟩ := third
    cases hthird
    exact (ethird.stopped _ _ sampleStore_load sampleStray_stopped).1
  simp only [List.map_cons, List.map_nil, reception_of_sampleLogging esecond hsecond,
    reception_of_sampleLogging efourth hfourth]
  simp only [Event.insertions, ofirst, othird]

/-- Twice the sample request is carried out with one recorder and turned down by another one. -/
theorem sampleSteps_sound :
    ((run ⟨.empty, .empty⟩ sampleSteps).2.map (·.result.outcome) =
        [.error (.classUnavailable (.notFound sampleLogging.targetClass)), .ok 7,
          .error (.symbolNotFound (.classEntry "game.Card")), .ok 7] ∧
      (run ⟨.empty, .empty⟩ sampleSteps).1.recorder.insertions =
        List.replicate 2 ⟨sampleLogging.targetClass, sampleLogging.targetMethod, 7,
          "log($0, power);"⟩ ∧
      (run ⟨.empty, .empty⟩ sampleSteps).1.store = sampleStore) ∧
    (run ⟨.empty, ⟨[], some "full"⟩⟩ sampleSteps).2.map (·.result.outcome) =
        [.error (.classUnavailable (.notFound sampleLogging.targetClass)),
          .error (.weaveRejected "full"), .error (.symbolNotFound (.classEntry "game.Card")),
          .error (.weaveRejected "full")] ∧
      (run ⟨.empty, ⟨[], some "full"⟩⟩ sampleSteps).1.recorder.insertions = [] := by
  obtain ⟨hstore, -, hins, hmet, hexplained, -⟩ := run_sound ⟨.empty, .empty⟩ sampleSteps
  obtain ⟨-, -, hins', hmet', hexplained', -⟩ := run_sound ⟨.empty, ⟨[], some "full"⟩⟩ sampleSteps
  have hr := receptions_of_met hmet hexplained
  have hr' := receptions_of_met hmet' hexplained'
  refine ⟨⟨?_, hins.trans ?_, hstore⟩, ?_, hins'.trans ?_⟩
  · exact (List.map_map ..).symm.trans (congrArg (List.map Prod.fst) hr)
  · exact (List.flatMap_map ..).symm.trans (congrArg (List.flatMap Prod.snd) hr)
  · exact (List.map_map ..).symm.trans (congrArg (List.map Prod.fst) hr')
  · exact (List.flatMap_map ..).symm.trans (congrArg (List.flatMap Prod.snd) hr')

end Session

end ClassSplice
