import Refault.Lib.Machine
import Refault.Lib.PrefixCode
import Refault.Basic

/-!
# Refault.EventHandler — the determinism checks

The handlers of `event.rs` and the modes of `SimBuilder::run` that use them.  The first run records its
events, or a hash of them; every later run is validated against the record.  `AHasher` is the list of the
values written to it, and its `finish` a parameter: a `u64` cannot be injective in the list, so the digest is
of any type.
-/

namespace Refault

/-- The panics of the handlers, and the assertion on `iterations`. -/
inductive CheckPanic
  /-- `Expected no further events, but got '{current_event:?}'` -/
  | noFurtherEvents (current : Event)
  /-- `Validation failed for event {index}: Expected '{expected:?}', but got '{current_event:?}'` -/
  | validationFailed (index : ℕ) (expected current : Event)
  /-- `Expected {len} events but only got {index}` -/
  | onlyGot (len index : ℕ)
  /-- `Event sequences differ` -/
  | sequencesDiffer
  /-- `assert!(iterations > 1)` -/
  | iterations
deriving DecidableEq

/-- What `finalize` returns is boxed as `dyn Any`; its type is a parameter here. -/
class EventHandler (H : Type) (R : outParam Type) where
  handleEvent : H → Event → Except CheckPanic H
  finalize : H → Except CheckPanic R

open EventHandler

/-- A run on handler `h` in which the events `s` happen, to its end. -/
def runWithEvents {H R : Type} [EventHandler H R] (h : H) (s : List Event) : Except CheckPanic R :=
  Machine.run handleEvent h s >>= finalize

structure NoopEventHandler where

instance : EventHandler NoopEventHandler Unit where
  handleEvent h _ := .ok h
  finalize _ := .ok ()

structure RecordingEventHandler where
  recordedEvents : List Event

def RecordingEventHandler.new : RecordingEventHandler := ⟨[]⟩

instance : EventHandler RecordingEventHandler (List Event) where
  handleEvent h event := .ok ⟨h.recordedEvents ++ [event]⟩
  finalize h := .ok h.recordedEvents

structure ValidatingEventHandler where
  eventsToValidate : List Event
  nextEventIndex : ℕ

def ValidatingEventHandler.new (previousEvents : List Event) : ValidatingEventHandler := ⟨previousEvents, 0⟩

instance : EventHandler ValidatingEventHandler Unit where
  handleEvent h event :=
    match h.eventsToValidate[h.nextEventIndex]? with
    | none => .error (.noFurtherEvents event)
    | some expected =>
      if event = expected then .ok { h with nextEventIndex := h.nextEventIndex + 1 }
      else .error (.validationFailed h.nextEventIndex expected event)
  finalize h :=
    if h.nextEventIndex = h.eventsToValidate.length then .ok ()
    else .error (.onlyGot h.eventsToValidate.length h.nextEventIndex)

/-- The values that the derived `Hash` of `Event` writes: the discriminant, then the fields. -/
def Event.hash : Event → List ℕ
  | .taskRun id => [0, id]
  | .timeAdvanced dt => [1, dt.secs, dt.nanos]
  -- a `NodeId` is the index and one, as a `NonZeroUsize`
  | .nodeSpawned node => [2, node + 1]
  | .taskSpawned => [3]

/-- `AHasher`, by what was written to it since its default state. -/
structure AHasher where
  written : List ℕ

def AHasher.write (hasher : AHasher) (event : Event) : AHasher := ⟨hasher.written ++ event.hash⟩

structure HashRecordingEventHandler {D : Type} (finish : List ℕ → D) where
  hasher : AHasher

def HashRecordingEventHandler.default {D : Type} (finish : List ℕ → D) : HashRecordingEventHandler finish := ⟨⟨[]⟩⟩

instance {D : Type} (finish : List ℕ → D) : EventHandler (HashRecordingEventHandler finish) D where
  handleEvent h event := .ok ⟨h.hasher.write event⟩
  finalize h := .ok (finish h.hasher.written)

structure HashValidatingEventHandler {D : Type} (finish : List ℕ → D) where
  hasher : AHasher
  expected : D

def HashValidatingEventHandler.new {D : Type} (finish : List ℕ → D) (expected : D) :
    HashValidatingEventHandler finish := ⟨⟨[]⟩, expected⟩

instance {D : Type} [DecidableEq D] (finish : List ℕ → D) :
    EventHandler (HashValidatingEventHandler finish) Unit where
  handleEvent h event := .ok { h with hasher := h.hasher.write event }
  finalize h := if finish h.hasher.written = h.expected then .ok () else .error .sequencesDiffer

inductive DeterminismCheck
  | none
  | full (iterations : ℕ)
  | hash (iterations : ℕ)

/-- `SimBuilder::run` as far as the events go; `runs i` are those of its run number `i`. -/
def checkRuns {D : Type} [DecidableEq D] (finish : List ℕ → D) (runs : ℕ → List Event) :
    DeterminismCheck → Except CheckPanic Unit
  | .none => runWithEvents NoopEventHandler.mk (runs 0)
  | .full iterations =>
    if 1 < iterations then do
      let events ← runWithEvents RecordingEventHandler.new (runs 0)
      (List.range' 1 (iterations - 1)).forM fun i => runWithEvents (ValidatingEventHandler.new events) (runs i)
    else .error .iterations
  | .hash iterations =>
    if 1 < iterations then do
      let eventHash ← runWithEvents (HashRecordingEventHandler.default finish) (runs 0)
      (List.range' 1 (iterations - 1)).forM fun i =>
        runWithEvents (HashValidatingEventHandler.new finish eventHash) (runs i)
    else .error .iterations

variable {H R : Type} [EventHandler H R]

/-- The handler takes the first `i` events and panics at the next one. -/
def PanicsAt (h : H) (s : List Event) (i : ℕ) (p : CheckPanic) : Prop :=
  ∃ h' event, Machine.run handleEvent h (s.take i) = .ok h' ∧ s[i]? = some event ∧ handleEvent h' event = .error p

theorem PanicsAt.runWithEvents {h : H} {s : List Event} {i : ℕ} {p : CheckPanic} (hp : PanicsAt h s i p) :
    runWithEvents h s = .error p := by
  obtain ⟨h', event, hrun, hi, hev⟩ := hp
  obtain ⟨hlt, rfl⟩ := List.getElem?_eq_some_iff.mp hi
  have hsplit : s = s.take i ++ s[i] :: s.drop (i + 1) := by
    rw [List.cons_getElem_drop_succ, List.take_append_drop]
  have hstop : ∀ (xs : List Event) (k : H), Machine.run handleEvent k xs = .ok h' →
      Machine.run handleEvent k (xs ++ s[i] :: s.drop (i + 1)) = .error p := by
    intro xs
    induction xs with
    | nil =>
      intro k hk
      cases hk
      simp only [List.nil_append, Machine.run, hev]
      rfl
    | cons x xs ih =>
      intro k hk
      obtain ⟨m, hm, hrest⟩ := Machine.run_cons.mp hk
      simp only [List.cons_append, Machine.run, hm]
      exact ih m hrest
  unfold Refault.runWithEvents
  rw [hsplit, hstop _ _ hrun]
  rfl

/-! ## Validation event by event -/

/-- Two lists are equal, or one goes on where the other ends, or they differ at a first place. -/
theorem eq_or_differ (s r : List Event) : s = r ∨ (∃ e xs, s = r ++ e :: xs) ∨ (∃ e ys, r = s ++ e :: ys) ∨
    ∃ p e e' xs ys, e ≠ e' ∧ s = p ++ e :: xs ∧ r = p ++ e' :: ys := by
  induction s generalizing r with
  | nil =>
    cases r with
    | nil => exact Or.inl rfl
    | cons e ys => exact Or.inr (Or.inr (Or.inl ⟨e, ys, rfl⟩))
  | cons x s ih =>
    cases r with
    | nil => exact Or.inr (Or.inl ⟨x, s, rfl⟩)
    | cons y r =>
      by_cases hxy : x = y
      · subst hxy
        rcases ih r with rfl | ⟨e, xs, rfl⟩ | ⟨e, ys, rfl⟩ | ⟨p, e, e', xs, ys, hne, rfl, rfl⟩
        · exact Or.inl rfl
        · exact Or.inr (Or.inl ⟨e, xs, rfl⟩)
        · exact Or.inr (Or.inr (Or.inl ⟨e, ys, rfl⟩))
        · exact Or.inr (Or.inr (Or.inr ⟨x :: p, e, e', xs, ys, hne, rfl, rfl⟩))
      · exact Or.inr (Or.inr (Or.inr ⟨[], x, y, s, r, hxy, rfl, rfl⟩))

namespace ValidatingEventHandler

/-- The handler takes the record, from any index on. -/
theorem run_prefix (q p ys : List Event) :
    Machine.run handleEvent (⟨q ++ p ++ ys, q.length⟩ : ValidatingEventHandler) p =
      .ok ⟨q ++ p ++ ys, (q ++ p).length⟩ := by
  induction p generalizing q with
  | nil => simp
  | cons e p ih =>
    have hnext : handleEvent (⟨q ++ e :: p ++ ys, q.length⟩ : ValidatingEventHandler) e =
        .ok ⟨q ++ e :: p ++ ys, q.length + 1⟩ := by
      simp [handleEvent]
    have hrest := ih (q ++ [e])
    exact Machine.run_cons.mpr ⟨_, hnext, by simpa using hrest⟩

theorem run_new (p ys : List Event) :
    Machine.run handleEvent (new (p ++ ys)) p = .ok (⟨p ++ ys, p.length⟩ : ValidatingEventHandler) := by
  simpa [new] using run_prefix [] p ys

theorem accepts (r : List Event) : runWithEvents (new r) r = .ok () := by
  have hrun := run_new r []
  rw [List.append_nil] at hrun
  simp [runWithEvents, hrun, Except.bind_eq_ok_iff, finalize]

theorem differs (p xs ys : List Event) {e e' : Event} (hne : e ≠ e') :
    PanicsAt (new (p ++ e' :: ys)) (p ++ e :: xs) p.length (.validationFailed p.length e' e) := by
  refine ⟨⟨p ++ e' :: ys, p.length⟩, e, ?_, ?_, ?_⟩
  · simpa using run_new p (e' :: ys)
  · simp
  · simp [handleEvent, hne]

theorem goes_on (r xs : List Event) (e : Event) :
    PanicsAt (new r) (r ++ e :: xs) r.length (.noFurtherEvents e) := by
  refine ⟨⟨r, r.length⟩, e, ?_, ?_, ?_⟩
  · have hrun := run_new r []
    rw [List.append_nil] at hrun
    simpa using hrun
  · simp
  · simp [handleEvent]

theorem ends_early (s ys : List Event) (e : Event) :
    finalize (⟨s ++ e :: ys, s.length⟩ : ValidatingEventHandler) =
      .error (.onlyGot (s ++ e :: ys).length s.length) := by
  simp [finalize]

end ValidatingEventHandler

/-! ## Validation by hash -/

theorem Event.hash_ne_nil (event : Event) : event.hash ≠ [] := by
  cases event <;> simp [Event.hash]

/-- The discriminant says how many values follow. -/
theorem Event.hash_prefixFree : PrefixFree Event.hash := by
  intro a b xs ys h
  cases a with
  | taskRun id =>
    cases b <;> simp [Event.hash] at h
    rw [h.1]
  | timeAdvanced dt =>
    cases b with
    | timeAdvanced dt' =>
      simp only [Event.hash, List.cons_append, List.cons.injEq] at h
      obtain ⟨-, hsecs, hnanos, -⟩ := h
      cases dt
      cases dt'
      cases hsecs
      cases hnanos
      rfl
    | _ => simp [Event.hash] at h
  | nodeSpawned node =>
    cases b <;> simp [Event.hash] at h
    rw [h.1]
  | taskSpawned => cases b <;> simp [Event.hash] at h; rfl

section Hash

variable {D : Type} (finish : List ℕ → D)

/-- What both hash handlers have written at the end. -/
theorem written_eq (hasher : AHasher) (s : List Event) :
    (s.foldl AHasher.write hasher).written = hasher.written ++ s.flatMap Event.hash := by
  induction s generalizing hasher with
  | nil => simp
  | cons e s ih =>
    rw [List.foldl_cons, ih]
    simp [AHasher.write]

theorem HashRecordingEventHandler.run (hasher : AHasher) (s : List Event) :
    Machine.run handleEvent (⟨hasher⟩ : HashRecordingEventHandler finish) s =
    .ok ⟨s.foldl AHasher.write hasher⟩ := by
  induction s generalizing hasher with
  | nil => rfl
  | cons e s ih => exact ih (hasher.write e)

theorem HashRecordingEventHandler.records (r : List Event) :
    runWithEvents (HashRecordingEventHandler.default finish) r = .ok (finish (r.flatMap Event.hash)) := by
  simp [runWithEvents, HashRecordingEventHandler.default, HashRecordingEventHandler.run, Except.bind_eq_ok_iff,
    finalize, written_eq]

variable [DecidableEq D]

theorem HashValidatingEventHandler.run (hasher : AHasher) (d : D) (s : List Event) :
    Machine.run handleEvent (⟨hasher, d⟩ : HashValidatingEventHandler finish) s =
      .ok ⟨s.foldl AHasher.write hasher, d⟩ := by
  induction s generalizing hasher with
  | nil => rfl
  | cons e s ih => exact ih (hasher.write e)

theorem HashValidatingEventHandler.validates (s : List Event) (d : D) :
    runWithEvents (HashValidatingEventHandler.new finish d) s =
      if finish (s.flatMap Event.hash) = d then .ok () else .error .sequencesDiffer := by
  unfold runWithEvents HashValidatingEventHandler.new
  rw [HashValidatingEventHandler.run]
  have hw := written_eq ⟨[]⟩ s
  rw [List.nil_append] at hw
  show finalize (_ : HashValidatingEventHandler finish) = _
  simp only [finalize, hw]

end Hash

/-! ## What the checks accept -/

theorem validates_iff (r s : List Event) : runWithEvents (ValidatingEventHandler.new r) s = .ok () ↔ s = r := by
  constructor
  · intro h
    rcases eq_or_differ s r with heq | ⟨e, xs, rfl⟩ | ⟨e, ys, rfl⟩ | ⟨p, e, e', xs, ys, hne, rfl, rfl⟩
    · exact heq
    · rw [(ValidatingEventHandler.goes_on r xs e).runWithEvents] at h
      cases h
    · unfold runWithEvents at h
      rw [ValidatingEventHandler.run_new] at h
      cases (ValidatingEventHandler.ends_early s ys e).symm.trans h
    · rw [(ValidatingEventHandler.differs p xs ys hne).runWithEvents] at h
      cases h
  · rintro rfl
    exact ValidatingEventHandler.accepts s

section Modes

variable {D : Type} [DecidableEq D] {finish : List ℕ → D}

theorem forM_eq_ok {f : ℕ → Except CheckPanic Unit} {xs : List ℕ} :
    xs.forM f = .ok () ↔ ∀ i ∈ xs, f i = .ok () := by
  induction xs with
  | nil => exact ⟨fun _ i hi => absurd hi List.not_mem_nil, fun _ => rfl⟩
  | cons x xs ih =>
    rw [List.forall_mem_cons, ← ih]
    show (f x >>= fun _ => xs.forM f) = .ok () ↔ _
    rw [Except.bind_eq_ok_iff]
    constructor
    · rintro ⟨⟨⟩, hx, hxs⟩
      exact ⟨hx, hxs⟩
    · rintro ⟨hx, hxs⟩
      exact ⟨(), hx, hxs⟩

theorem RecordingEventHandler.records (r : List Event) : runWithEvents RecordingEventHandler.new r = .ok r := by
  have hrun : ∀ q : List Event, Machine.run handleEvent (⟨q⟩ : RecordingEventHandler) r = .ok ⟨q ++ r⟩ := by
    induction r with
    | nil => simp
    | cons e r ih =>
      intro q
      refine Machine.run_cons.mpr ⟨⟨q ++ [e]⟩, rfl, ?_⟩
      simpa using ih (q ++ [e])
  unfold runWithEvents RecordingEventHandler.new
  rw [hrun]
  rfl

/-- The later runs of `SimBuilder::run` are those after the first. -/
theorem mem_laterRuns {n i : ℕ} (hn : 1 < n) : i ∈ List.range' 1 (n - 1) ↔ 0 < i ∧ i < n := by
  rw [List.mem_range'_1]
  omega

/-- The mode `Full` accepts the runs that have the events of the first. -/
theorem checkRuns_full_iff (runs : ℕ → List Event) (n : ℕ) :
    checkRuns finish runs (.full n) = .ok () ↔ 1 < n ∧ ∀ i, 0 < i → i < n → runs i = runs 0 := by
  by_cases hn : 1 < n
  · rw [checkRuns, if_pos hn, RecordingEventHandler.records]
    refine Iff.trans forM_eq_ok ?_
    simp only [validates_iff, mem_laterRuns hn, hn, true_and, and_imp]
  · simp [checkRuns, hn]

/-- The mode `Hash` accepts the runs that have the hash of the first. -/
theorem checkRuns_hash_iff (runs : ℕ → List Event) (n : ℕ) :
    checkRuns finish runs (.hash n) = .ok () ↔ 1 < n ∧ ∀ i, 0 < i → i < n →
      finish ((runs i).flatMap Event.hash) = finish ((runs 0).flatMap Event.hash) := by
  have hok : ∀ i, runWithEvents (HashValidatingEventHandler.new finish (finish ((runs 0).flatMap Event.hash)))
      (runs i) = .ok () ↔ finish ((runs i).flatMap Event.hash) = finish ((runs 0).flatMap Event.hash) := by
    intro i
    rw [HashValidatingEventHandler.validates]
    split_ifs with hd <;> simp [hd]
  by_cases hn : 1 < n
  · rw [checkRuns, if_pos hn, HashRecordingEventHandler.records]
    refine Iff.trans forM_eq_ok ?_
    simp only [hok, mem_laterRuns hn, hn, true_and, and_imp]
  · simp [checkRuns, hn]

omit [DecidableEq D] in
/-- Runs have equal events if they have equal hashes. -/
theorem hash_eq_iff (hinj : Function.Injective finish) (r s : List Event) :
    finish (s.flatMap Event.hash) = finish (r.flatMap Event.hash) ↔ s = r :=
  ⟨fun h => Event.hash_prefixFree.flatMap_injective Event.hash_ne_nil (hinj h), fun h => by rw [h]⟩

end Modes

/-- The determinism checks decide whether a run has the events of the recorded one. -/
theorem determinism_checks_decide_equality {D : Type} [DecidableEq D] (finish : List ℕ → D) (r s : List Event) :
    (runWithEvents (ValidatingEventHandler.new r) s = .ok () ↔ s = r) ∧
    (∀ i e e', s.take i = r.take i → s[i]? = some e → r[i]? = some e' → e ≠ e' →
      PanicsAt (ValidatingEventHandler.new r) s i (.validationFailed i e' e)) ∧
    (∀ e, r <+: s → s[r.length]? = some e →
      PanicsAt (ValidatingEventHandler.new r) s r.length (.noFurtherEvents e)) ∧
    (s <+: r → s ≠ r → ∃ h, Machine.run handleEvent (ValidatingEventHandler.new r) s = .ok h ∧
      finalize h = .error (.onlyGot r.length s.length)) ∧
    (∃ d, runWithEvents (HashRecordingEventHandler.default finish) r = .ok d ∧
      (s = r → runWithEvents (HashValidatingEventHandler.new finish d) s = .ok ()) ∧
      (Function.Injective finish → s ≠ r →
        runWithEvents (HashValidatingEventHandler.new finish d) s = .error .sequencesDiffer)) ∧
    (∀ runs n, checkRuns finish runs (.full n) = .ok () ↔ 1 < n ∧ ∀ i, 0 < i → i < n → runs i = runs 0) ∧
    (∀ runs n, 1 < n → (∀ i, 0 < i → i < n → runs i = runs 0) → checkRuns finish runs (.hash n) = .ok ()) ∧
    (Function.Injective finish → ∀ runs n,
      (checkRuns finish runs (.hash n) = .ok () ↔ 1 < n ∧ ∀ i, 0 < i → i < n → runs i = runs 0) ∧
      (checkRuns finish runs (.full n) = .ok () ↔ checkRuns finish runs (.hash n) = .ok ())) := by
  refine ⟨validates_iff r s, ?_, ?_, ?_, ⟨_, HashRecordingEventHandler.records finish r, ?_, ?_⟩,
    checkRuns_full_iff, ?_, ?_⟩
  · intro i e e' htake hs hr hne
    obtain ⟨his, rfl⟩ := List.getElem?_eq_some_iff.mp hs
    obtain ⟨hir, rfl⟩ := List.getElem?_eq_some_iff.mp hr
    have hsplit : ∀ {xs : List Event} (h : i < xs.length), xs = xs.take i ++ xs[i] :: xs.drop (i + 1) := by
      intro xs h
      rw [List.cons_getElem_drop_succ, List.take_append_drop]
    have hpanic := ValidatingEventHandler.differs (r.take i) (s.drop (i + 1)) (r.drop (i + 1)) hne
    rw [← hsplit hir, ← htake, ← hsplit his, List.length_take, Nat.min_eq_left his.le] at hpanic
    exact hpanic
  · rintro e ⟨t, rfl⟩ he
    cases t with
    | nil => simp at he
    | cons x xs =>
      obtain rfl : x = e := by simpa using he
      exact ValidatingEventHandler.goes_on r xs x
  · rintro ⟨t, rfl⟩ hne
    cases t with
    | nil => simp at hne
    | cons x ys => exact ⟨_, ValidatingEventHandler.run_new s (x :: ys), ValidatingEventHandler.ends_early s ys x⟩
  · rintro rfl
    rw [HashValidatingEventHandler.validates, if_pos rfl]
  · intro hinj hne
    rw [HashValidatingEventHandler.validates, if_neg]
    exact fun hd => hne ((hash_eq_iff hinj r s).mp hd)
  · intro runs n hn heq
    exact (checkRuns_hash_iff runs n).mpr ⟨hn, fun i h0 hi => by rw [heq i h0 hi]⟩
  · intro hinj runs n
    have hhash : checkRuns finish runs (.hash n) = .ok () ↔ 1 < n ∧ ∀ i, 0 < i → i < n → runs i = runs 0 := by
      rw [checkRuns_hash_iff]
      simp only [hash_eq_iff hinj]
    exact ⟨hhash, (checkRuns_full_iff runs n).trans hhash.symm⟩

/-- A later run that polls another task is rejected by its hash, and so is a third run that differs. -/
theorem determinism_checks_decide_equality_hash :
    (∃ d, runWithEvents (HashRecordingEventHandler.default id) [.taskSpawned, .taskRun 1] = .ok d ∧
      runWithEvents (HashValidatingEventHandler.new id d) [.taskSpawned, .taskRun 2] = .error .sequencesDiffer) ∧
    checkRuns id (fun i => if i < 2 then [.taskSpawned] else []) (.hash 2) = .ok () ∧
    checkRuns id (fun i => if i < 2 then [.taskSpawned] else []) (.hash 3) ≠ .ok () := by
  obtain ⟨-, -, -, -, ⟨d, hd, -, hne⟩, -, hhash, hiff⟩ :=
    determinism_checks_decide_equality id [.taskSpawned, .taskRun 1] [.taskSpawned, .taskRun 2]
  refine ⟨⟨d, hd, hne Function.injective_id (by decide)⟩, hhash _ 2 (by decide) fun i h0 hi => ?_, fun hok => ?_⟩
  · obtain rfl : i = 1 := by omega
    rfl
  · have h := ((hiff Function.injective_id _ 3).1.mp hok).2 2 (by decide) (by decide)
    simp at h

end Refault
