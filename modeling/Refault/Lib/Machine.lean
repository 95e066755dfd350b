import Mathlib.Tactic.Common
import Mathlib.Data.List.Induction

/-!
# Machines: runs of a partial step function

A machine is a function `step : S → L → Except E S`: from a state and a label to the next state, or to the
reason why there is none.  `run` folds it over a list of labels, `Steps` is reachability, `Along` says that
every step of a run meets a condition on its source state and label.  The rules:

* `Steps.inv`, `Steps.inv_of`: what one step preserves, every run preserves (the second with an invariant
  known already).
* `Along.inv`: the same when only the steps that meet a condition preserve it.
* `accepts_of_sim`: a machine that writes a log is simulated by an abstract machine that reads the log; then
  every log written is accepted by the abstract machine.
-/

theorem Except.bind_eq_ok_iff {E A B : Type} {x : Except E A} {f : A → Except E B} {b : B} :
    (x >>= f) = .ok b ↔ ∃ a, x = .ok a ∧ f a = .ok b := by
  cases x with
  | error e =>
    constructor
    · intro h; cases h
    · rintro ⟨a, h, _⟩; cases h
  | ok a =>
    constructor
    · exact fun h => ⟨a, rfl, h⟩
    · rintro ⟨a', h, h'⟩; cases h; exact h'

theorem Except.bind_eq_error_iff {E A B : Type} {x : Except E A} {f : A → Except E B} {e : E} :
    (x >>= f) = .error e ↔ x = .error e ∨ ∃ a, x = .ok a ∧ f a = .error e := by
  cases x with
  | error e' =>
    refine ⟨fun h => Or.inl (by cases h; rfl), ?_⟩
    rintro (h | ⟨a, h, _⟩)
    · cases h; rfl
    · cases h
  | ok a =>
    refine ⟨fun h => Or.inr ⟨a, rfl, h⟩, ?_⟩
    rintro (h | ⟨a', h, h'⟩)
    · cases h
    · cases h; exact h'

namespace Machine

variable {S L E : Type}

/-- Take the labels one after the other; the first step that is not possible ends the run. -/
def run (step : S → L → Except E S) : S → List L → Except E S
  | s, [] => .ok s
  | s, l :: ls => step s l >>= fun m => run step m ls

/-- `s'` is reached from `s` by some run. -/
def Steps (step : S → L → Except E S) (s s' : S) : Prop := ∃ ls, run step s ls = .ok s'

/-- Every step of the run of `ls` from `s` is taken in a state and with a label that meet `P`. -/
def Along (step : S → L → Except E S) (P : S → L → Prop) : S → List L → Prop
  | _, [] => True
  | s, l :: ls => P s l ∧ ∀ m, step s l = .ok m → Along step P m ls

variable {step : S → L → Except E S}

@[simp] theorem run_nil (s : S) : run step s [] = .ok s := rfl

theorem run_cons {s s' : S} {l : L} {ls : List L} :
    run step s (l :: ls) = .ok s' ↔ ∃ m, step s l = .ok m ∧ run step m ls = .ok s' :=
  Except.bind_eq_ok_iff

theorem run_append {s s' : S} {ls ls' : List L} :
    run step s (ls ++ ls') = .ok s' ↔ ∃ m, run step s ls = .ok m ∧ run step m ls' = .ok s' := by
  induction ls generalizing s with
  | nil => simp
  | cons l ls ih =>
    simp only [List.cons_append, run_cons, ih]
    constructor
    · rintro ⟨m, h1, m', h2, h3⟩
      exact ⟨m', ⟨m, h1, h2⟩, h3⟩
    · rintro ⟨m', ⟨m, h1, h2⟩, h3⟩
      exact ⟨m, h1, m', h2, h3⟩

theorem run_single {s s' : S} {l : L} : run step s [l] = .ok s' ↔ step s l = .ok s' := by
  rw [run_cons]
  exact ⟨fun ⟨m, h, h'⟩ => by cases h'; exact h, fun h => ⟨s', h, rfl⟩⟩

/-- A run that computes to a value of `f` ends in a state with that value. -/
theorem exists_of_run {A : Type} {s : S} {ls : List L} {f : S → A} {v : A} (h : (run step s ls).map f = .ok v) :
    ∃ s', run step s ls = .ok s' ∧ f s' = v := by
  cases hr : run step s ls with
  | error e => rw [hr] at h; cases h
  | ok s' => rw [hr] at h; cases h; exact ⟨s', rfl, rfl⟩

namespace Steps

theorem refl (s : S) : Steps step s s := ⟨[], rfl⟩

theorem single {s s' : S} {l : L} (h : step s l = .ok s') : Steps step s s' := ⟨[l], run_single.mpr h⟩

theorem trans {s m s' : S} (h : Steps step s m) (h' : Steps step m s') : Steps step s s' := by
  obtain ⟨ls, h⟩ := h
  obtain ⟨ls', h'⟩ := h'
  exact ⟨ls ++ ls', run_append.mpr ⟨m, h, h'⟩⟩

theorem tail {s m s' : S} {l : L} (h : Steps step s m) (h' : step m l = .ok s') : Steps step s s' :=
  h.trans (single h')

/-- Induction over a run from its start, adding steps at the end. -/
theorem induct {s : S} {P : S → Prop} (h0 : P s)
    (hstep : ∀ m l s', Steps step s m → P m → step m l = .ok s' → P s') {s' : S} (h : Steps step s s') : P s' := by
  obtain ⟨ls, h⟩ := h
  induction ls using List.reverseRecOn generalizing s' with
  | nil => cases h; exact h0
  | append_singleton ls l ih =>
    obtain ⟨m, h1, h2⟩ := run_append.mp h
    exact hstep m l s' ⟨ls, h1⟩ (ih h1) (run_single.mp h2)

/-- **Invariants**: what every step preserves, every run preserves. -/
theorem inv {I : S → Prop} (hI : ∀ s l s', I s → step s l = .ok s' → I s') {s s' : S} (h : Steps step s s')
    (h0 : I s) : I s' :=
  h.induct h0 fun m l s' _ => hI m l s'

/-- Invariants on top of an invariant `J` known already. -/
theorem inv_of {J I : S → Prop} (hJ : ∀ s l s', J s → step s l = .ok s' → J s')
    (hI : ∀ s l s', J s → I s → step s l = .ok s' → I s') {s s' : S} (h : Steps step s s') (h0 : J s) (h1 : I s) :
    I s' :=
  (h.inv (I := fun s => J s ∧ I s) (fun s l s' hs h => ⟨hJ s l s' hs.1 h, hI s l s' hs.1 hs.2 h⟩) ⟨h0, h1⟩).2

end Steps

theorem Along.append {P : S → L → Prop} {s m : S} {ls ls' : List L} (hr : run step s ls = .ok m)
    (h : Along step P s (ls ++ ls')) : Along step P s ls ∧ Along step P m ls' := by
  induction ls generalizing s with
  | nil => cases hr; exact ⟨trivial, h⟩
  | cons l ls ih =>
    obtain ⟨k, h1, h2⟩ := run_cons.mp hr
    obtain ⟨hP, hrest⟩ := h
    refine ⟨⟨hP, fun k' h1' => ?_⟩, (ih h2 (hrest k h1)).2⟩
    rw [h1] at h1'
    cases h1'
    exact (ih h2 (hrest k h1)).1

/-- Every step of the run, by the labels before and after it. -/
theorem along_iff {P : S → L → Prop} {s : S} {ls : List L} :
    Along step P s ls ↔ ∀ ls₁ l ls₂ m, ls = ls₁ ++ l :: ls₂ → run step s ls₁ = .ok m → P m l := by
  constructor
  · rintro h ls₁ l ls₂ m rfl hr
    exact (h.append hr).2.1
  · intro h
    induction ls generalizing s with
    | nil => trivial
    | cons l ls ih =>
      refine ⟨h [] l ls s rfl rfl, fun m hst => ih fun ls₁ l' ls₂ m' hls hr => ?_⟩
      exact h (l :: ls₁) l' ls₂ m' (by rw [hls]; rfl) (run_cons.mpr ⟨m, hst, hr⟩)

/-- **Invariants of conditional runs**: if the steps that meet `P` preserve `I`, so does every run all of whose
steps meet `P`. -/
theorem Along.inv {P : S → L → Prop} {I : S → Prop} (hI : ∀ s l s', I s → P s l → step s l = .ok s' → I s')
    {s s' : S} {ls : List L} (h : Along step P s ls) (hr : run step s ls = .ok s') (h0 : I s) : I s' := by
  induction ls generalizing s with
  | nil => cases hr; exact h0
  | cons l ls ih =>
    obtain ⟨m, h1, h2⟩ := run_cons.mp hr
    exact ih (h.2 m h1) h2 (hI s l m h0 h.1 h1)

section Log

variable {A O : Type} {astep : A → O → Option A}

/-- The abstract machine reads a log. -/
def accept (astep : A → O → Option A) (a : A) (os : List O) : Option A := os.foldlM astep a

theorem accept_append {a : A} {os os' : List O} :
    accept astep a (os ++ os') = (accept astep a os).bind fun a' => accept astep a' os' := by
  simp [accept, List.foldlM_append]

/-- **Simulation through a log**: `step` extends the log by entries that the abstract machine can read from every
abstract state related to the source, and ends related; then the log of every run is accepted. -/
theorem accepts_of_sim (log : S → List O) {R : S → A → Prop} {I : S → Prop} {a₀ : A}
    (hI : ∀ s l s', I s → step s l = .ok s' → I s')
    (hsim : ∀ s l s' a, I s → R s a → step s l = .ok s' →
      ∃ os a', log s' = log s ++ os ∧ accept astep a os = some a' ∧ R s' a')
    {s s' : S} (hlog : log s = []) (h0 : I s) (hR : R s a₀) (h : Steps step s s') :
    ∃ a, accept astep a₀ (log s') = some a ∧ R s' a := by
  refine h.inv_of (J := I) (I := fun s' => ∃ a, accept astep a₀ (log s') = some a ∧ R s' a) hI ?_ h0
    ⟨a₀, by rw [hlog]; rfl, hR⟩
  rintro m l m' hm ⟨a, ha, hRa⟩ hst
  obtain ⟨os, a', hlog', ha', hR'⟩ := hsim m l m' a hm hRa hst
  exact ⟨a', by rw [hlog', accept_append, ha]; exact ha', hR'⟩

end Log

end Machine
