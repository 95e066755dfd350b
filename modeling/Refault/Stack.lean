import Refault.ExecAct
import Refault.SimCx

/-!
# Refault.Stack — the shapes of the control stack

Which frames can be on the stack of the simulation thread, in terms of the context's cell and of whether a
task is being polled (`Shape`), and which node every frame belongs to (`Scoped`).
-/

namespace Refault

variable {V : Type}

namespace Frame

/-- Frames that a call puts on top of the caller's. -/
def nests : Frame V → Bool
  | .discard _ post _ => !post
  | .stopNode .. | .sims .. | .callback .. | .withSim .. | .stopAll _ => true
  | _ => false

/-- Frames that can have another frame on top while the context is free. -/
def isOpen : Frame V → Bool
  | .loop | .waking | .waker | .destroy | .finished _ => false
  | _ => true

end Frame

/-- The stacks of a free context; the flag says whether a task is being polled. -/
inductive Nested : Bool → List (Frame V) → Prop
  | init : Nested false [.init]
  | loop : Nested false [.loop]
  | destroy : Nested false [.destroy]
  | dropSims (time : Duration) : Nested false [.dropSims time]
  | dropSim (time : Duration) : Nested false [.dropSim, .dropSims time]
  | poll (caller : NodeId) : Nested true [.poll caller, .loop]
  | rootStop (v : V) (caller : NodeId) : Nested true [.rootStop v caller, .loop]
  | push {r : Bool} {f g : Frame V} {rest : List (Frame V)} (h : Nested r (g :: rest)) (hg : g.isOpen = true)
      (hf : f.nests = true) : Nested r (f :: g :: rest)

/-- The stacks there can be. -/
inductive Shape : CxCell → Bool → List (Frame V) → Prop
  | free {r : Bool} {fs : List (Frame V)} (h : Nested r fs) : Shape .free r fs
  | waking : Shape .borrowed false [.waking, .loop]
  | waker : Shape .borrowed false [.waker, .waking, .loop]
  | post (id : Id) (caller : NodeId) : Shape .borrowed false [.discard id true caller, .loop]
  | finished (time : Duration) : Shape .taken false [.finished time]

section Nested

variable {r : Bool} {f f' g : Frame V} {rest : List (Frame V)}

theorem Nested.tail (h : Nested r (f :: rest)) (hf : f.nests = true) : Nested r rest := by
  cases h with
  | push h _ _ => exact h
  | _ => simp [Frame.nests] at hf

theorem Nested.swap (h : Nested r (f :: rest)) (hf : f.nests = true) (hf' : f'.nests = true) :
    Nested r (f' :: rest) := by
  cases h with
  | push h hg _ => exact h.push hg hf'
  | _ => simp [Frame.nests] at hf

theorem Nested.loop_eq (h : Nested r (.loop :: rest)) : rest = [] ∧ r = false := by
  cases h with
  | loop => exact ⟨rfl, rfl⟩
  | push _ _ hf => simp [Frame.nests] at hf

theorem Nested.init_eq (h : Nested r (.init :: rest)) : rest = [] ∧ r = false := by
  cases h with
  | init => exact ⟨rfl, rfl⟩
  | push _ _ hf => simp [Frame.nests] at hf

theorem Nested.poll_eq {caller : NodeId} (h : Nested r (.poll caller :: rest)) : rest = [.loop] ∧ r = true := by
  cases h with
  | poll => exact ⟨rfl, rfl⟩
  | push _ _ hf => simp [Frame.nests] at hf

theorem Nested.rootStop_eq {v : V} {caller : NodeId} (h : Nested r (.rootStop v caller :: rest)) :
    rest = [.loop] ∧ r = true := by
  cases h with
  | rootStop => exact ⟨rfl, rfl⟩
  | push _ _ hf => simp [Frame.nests] at hf

theorem Nested.destroy_eq (h : Nested r (.destroy :: rest)) : rest = [] ∧ r = false := by
  cases h with
  | destroy => exact ⟨rfl, rfl⟩
  | push _ _ hf => simp [Frame.nests] at hf

theorem Nested.dropSims_eq {time : Duration} (h : Nested r (.dropSims time :: rest)) : rest = [] ∧ r = false := by
  cases h with
  | dropSims => exact ⟨rfl, rfl⟩
  | push _ _ hf => simp [Frame.nests] at hf

theorem Nested.dropSim_eq (h : Nested r (.dropSim :: rest)) : (∃ time, rest = [.dropSims time]) ∧ r = false := by
  cases h with
  | dropSim time => exact ⟨⟨time, rfl⟩, rfl⟩
  | push _ _ hf => simp [Frame.nests] at hf

/-- The frames that a free context rules out. -/
theorem Nested.not_borrowed (h : Nested r rest) {f : Frame V} (hf : f ∈ rest) :
    f ≠ .waking ∧ f ≠ .waker ∧ (∀ id c, f ≠ .discard id true c) ∧ ∀ t, f ≠ .finished t := by
  induction h with
  | push _ _ hn ih =>
    rcases List.mem_cons.mp hf with rfl | hf
    · refine ⟨?_, ?_, ?_, ?_⟩ <;> intros <;> rintro rfl <;> simp [Frame.nests] at hn
    · exact ih hf
  | _ => simp at hf; rcases hf with rfl | rfl <;> simp

theorem Shape.nested {fs : List (Frame V)} (h : Shape .free r fs) : Nested r fs := by cases h; assumption

theorem Shape.isOpen (h : Shape .free r (f :: rest)) (hu : f.isUser = true) : f.isOpen = true := by
  have hn := h.nested.not_borrowed (f := f) List.mem_cons_self
  cases f <;> simp [Frame.isUser, Frame.isOpen] at hu hn ⊢

/-- A call from user code. -/
theorem Shape.push (h : Shape .free r (g :: rest)) (hg : g.isOpen = true) (hf : f.nests = true) :
    Shape .free r (f :: g :: rest) := .free (h.nested.push hg hf)

end Nested

/-! ## Tops of the stack -/

section Top

variable {c : CxCell} {r : Bool} {f : Frame V} {rest : List (Frame V)}

theorem Shape.waking_eq (h : Shape c r (.waking :: rest)) : c = .borrowed ∧ r = false ∧ rest = [.loop] := by
  cases h with
  | free h => exact absurd rfl (h.not_borrowed List.mem_cons_self).1
  | waking => exact ⟨rfl, rfl, rfl⟩

theorem Shape.waker_eq (h : Shape c r (.waker :: rest)) : c = .borrowed ∧ r = false ∧ rest = [.waking, .loop] := by
  cases h with
  | free h => exact absurd rfl (h.not_borrowed List.mem_cons_self).2.1
  | waker => exact ⟨rfl, rfl, rfl⟩

theorem Shape.finished_eq {time : Duration} (h : Shape c r (.finished time :: rest)) :
    c = .taken ∧ r = false ∧ rest = [] := by
  cases h with
  | free h => exact absurd rfl ((h.not_borrowed List.mem_cons_self).2.2.2 time)
  | finished => exact ⟨rfl, rfl, rfl⟩

theorem Shape.discard_eq {id : Id} {post : Bool} {caller : NodeId}
    (h : Shape c r (.discard id post caller :: rest)) :
    post = false ∧ c = .free ∧ Nested r rest ∨ post = true ∧ c = .borrowed ∧ r = false ∧ rest = [.loop] := by
  cases h with
  | free h =>
    have hpost : post = false := by
      cases post with
      | false => rfl
      | true => exact absurd rfl ((h.not_borrowed List.mem_cons_self).2.2.1 id caller)
    subst hpost
    exact Or.inl ⟨rfl, rfl, h.tail rfl⟩
  | post => exact Or.inr ⟨rfl, rfl, rfl, rfl⟩

theorem Shape.of_nests (h : Shape c r (f :: rest)) (hf : f.nests = true) : c = .free ∧ Nested r rest := by
  cases h with
  | free h => exact ⟨rfl, h.tail hf⟩
  | _ => simp [Frame.nests] at hf

/-- Nothing is put on top of a destructor that runs inside `with_cx`. -/
theorem Shape.post_top {id : Id} {caller : NodeId} : ¬ Shape c r (f :: .discard id true caller :: rest) := by
  intro h
  cases h with
  | free h => exact absurd rfl ((h.not_borrowed (List.mem_cons_of_mem _ List.mem_cons_self)).2.2.1 id caller)

/-- Nothing is put on top of `destroy`. -/
theorem Shape.destroy_top : ¬ Shape c r (f :: .destroy :: rest) := by
  intro h
  cases h with
  | free h =>
    cases h with
    | push _ hg _ => cases hg

theorem Shape.dropSim_eq (h : Shape c r (.dropSim :: rest)) :
    c = .free ∧ r = false ∧ ∃ time, rest = [.dropSims time] := by
  cases h with
  | free h => exact ⟨rfl, h.dropSim_eq.2, h.dropSim_eq.1⟩

theorem Shape.loop_eq (h : Shape c r (.loop :: rest)) : c = .free ∧ r = false ∧ rest = [] := by
  cases h with
  | free h => exact ⟨rfl, h.loop_eq.2, h.loop_eq.1⟩

theorem Shape.destroy_eq (h : Shape c r (.destroy :: rest)) : c = .free ∧ r = false ∧ rest = [] := by
  cases h with
  | free h => exact ⟨rfl, h.destroy_eq.2, h.destroy_eq.1⟩

end Top

/-! ## Nodes -/

namespace Exec

variable (e : Exec V)

/-- `id` is a task of `node`. -/
def On (id : Id) (node : NodeId) : Prop := e.state id ≠ .taskEnd ∧ e.node id = node

end Exec

namespace Frame

/-- The current node of the frame below. -/
def below (cur : NodeId) : Frame V → NodeId
  | .poll caller | .rootStop _ caller | .discard _ _ caller | .stopNode _ caller | .sims _ _ _ caller => caller
  | _ => cur

/-- The tasks a frame is about are tasks of its current node. -/
def Fits (e : Exec V) (cur : NodeId) : Frame V → Prop
  | .poll _ | .rootStop _ _ => ∀ id, e.polling = some id → e.On id cur
  | .discard id _ _ => e.On id cur
  | .stopNode ids _ => ∀ id ∈ ids, e.On id cur
  | _ => True

end Frame

/-- Every frame fits the node that is current when it is on top, and the last one runs on the first node. -/
def Scoped (e : Exec V) : NodeId → List (Frame V) → Prop
  | cur, [] => cur = initNode
  | cur, f :: rest => f.Fits e cur ∧ Scoped e (f.below cur) rest

theorem Frame.Fits.mono {e e' : Exec V} (hon : ∀ id n, e.On id n → e'.On id n) (hp : e'.polling = e.polling)
    {cur : NodeId} {f : Frame V} (h : f.Fits e cur) : f.Fits e' cur := by
  cases f with
  | poll _ => exact fun id hid => hon _ _ (h id (hp ▸ hid))
  | rootStop _ _ => exact fun id hid => hon _ _ (h id (hp ▸ hid))
  | discard _ _ _ => exact hon _ _ h
  | stopNode _ _ => exact fun id hid => hon _ _ (h id hid)
  | _ => trivial

theorem Scoped.mono {e e' : Exec V} (hon : ∀ id n, e.On id n → e'.On id n) (hp : e'.polling = e.polling)
    {cur : NodeId} {fs : List (Frame V)} (h : Scoped e cur fs) : Scoped e' cur fs := by
  induction fs generalizing cur with
  | nil => exact h
  | cons f rest ih => exact ⟨h.1.mono hon hp, ih h.2⟩

/-- A task stays a task of its node. -/
theorem Exec.Act.on {e e' : Exec V} (h : Act e e') (hI : e.Inv) {id : Id} {n : NodeId} (hon : e.On id n) :
    e'.On id n := by
  obtain ⟨hs, hn⟩ := hon
  have key : e'.node id = e.node id ∧ (e'.state id = e.state id ∨ e'.state id ≠ .taskEnd) := by
    cases h with
    | spawn node id' hrun hid hlt =>
      have hne : id ≠ id' := by
        rintro rfl
        exact hs (hI.fresh _ (hid ▸ Nat.lt_succ_self _))
      simp [state_insertTask, node_insertTask, hne]
    | wake id' _ | abortPolled id' _ _ | abort id' _ _ =>
      by_cases h : id = id' <;> simp [h, dropUnsent]
    | poll id' q _ _ _ _ => by_cases h : id = id' <;> simp [h, takeHead]
    | clear id' q st _ hst _ _ =>
      by_cases h : id = id' <;> simp [h, clearHead]
      rcases hst with ⟨-, rfl⟩ | ⟨-, rfl⟩ <;> simp
    | ready id' v _ _ | readyQueued id' v _ _ => by_cases h : id = id' <;> simp [h, sent]
    | pendingAborted id' _ _ => simp [dropUnsent]
    | _ => exact ⟨rfl, Or.inl rfl⟩
  refine ⟨?_, key.1.trans hn⟩
  rcases key.2 with h | h
  · rw [h]; exact hs
  · exact h

end Refault
