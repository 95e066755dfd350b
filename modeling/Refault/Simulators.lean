import Refault.SimCx

/-!
# Refault.Simulators — the registry of `simulator.rs`, with panics that are caught

A panic in a simulator callback, in a closure under `SimulatorHandle::with` or in the registry itself unwinds
the stack and may be caught by user code, and the registry is then used on.  Here a function answers with the
registry that it leaves, also when it panics.  `SimThread` is the thread: the registry, the frames of accesses
and rounds that are open, and the way to the end (`SimPhase`).  A `.panic` frame is a panic that unwinds the
frame below it, and the code that may run meanwhile: destructors, which may use the registry again.  A panic
that leaves such code aborts the process.

`owners` is not in the program: the simulator that was pushed at each position.
-/

namespace Refault

/-- What the registry asks of a simulator: `Simulator: Any`. -/
class Simulator (S : Type) where
  typeId : S → SimTy

open Simulator (typeId)

/-- What `simulator.rs` uses of `SimCxl` and its executor. -/
structure SimRegistry (S : Type) where
  nodeCount : ℕ
  finalStopping : Bool
  simulators : List (Option S)
  simulatorsByType : SimTy → Option ℕ

namespace SimRegistry

variable {S : Type}

def new : SimRegistry S := ⟨1, false, [], fun _ => none⟩

/-- `add_simulator`; the insertion comes before the assertion on what it returns. -/
def addSimulator [Simulator S] (r : SimRegistry S) (simulator : S) : Except Panic Unit × SimRegistry S :=
  if r.nodeCount = 1 ∧ r.finalStopping = false then
    let old := r.simulatorsByType (typeId simulator)
    let r := { r with
      simulatorsByType := Function.update r.simulatorsByType (typeId simulator) (some r.simulators.length) }
    if old.isNone then (.ok (), { r with simulators := r.simulators ++ [some simulator] })
    else (.error .simulatorTwice, r)
  else (.error .simulatorTooLate, r)

/-- `SimulatorHandle::get`. -/
def get (r : SimRegistry S) (ty : SimTy) : Except Panic Unit × SimRegistry S :=
  if (r.simulatorsByType ty).isSome then (.ok (), r) else (.error .simulatorMissing, r)

/-- `with_simulator_option`, up to the call of `f`. -/
def withSimulatorOption (r : SimRegistry S) (ty : SimTy) : Except Panic (Option (ℕ × S)) × SimRegistry S :=
  match r.simulatorsByType ty with
  | none => (.ok none, r)
  | some index =>
    match r.simulators[index]? with
    | none => (.error .simulatorIndex, r)
    | some none => (.error .simulatorBorrowed, r)
    | some (some simulator) =>
      (.ok (some (index, simulator)), { r with simulators := r.simulators.set index none })

/-- The guard of `with_simulator_option`. -/
def replace (r : SimRegistry S) (index : ℕ) (simulator : S) : Except Panic Unit × SimRegistry S :=
  match r.simulators[index]? with
  | none => (.error .simulatorIndex, r)
  | some old =>
    let r := { r with simulators := r.simulators.set index (some simulator) }
    if old.isNone then (.ok (), r) else (.error .simulatorSlot, r)

/-- `swap` of `for_all_simulators`; the answer is the local `simulator` afterwards. -/
def swap (r : SimRegistry S) (index : ℕ) (simulator : Option S) : Except Panic (Option S) × SimRegistry S :=
  match r.simulators[index]? with
  | none => (.error .simulatorIndex, r)
  | some old => (.ok old, { r with simulators := r.simulators.set index simulator })

/-- The indices of `for_all_simulators`, in its order. -/
def order (forward : Bool) (len : ℕ) : List ℕ := if forward then List.range len else (List.range len).reverse

end SimRegistry

/-- A frame above the code of the simulation. -/
inductive SimFrame (S : Type)
  /-- user code: under `catch_unwind` -/
  | catchUnwind
  /-- user code: `f` of `with_simulator_option`, with its guard -/
  | withSim (index : ℕ) (sim : S)
  /-- `for_all_simulators`: the indices still to be visited, its local, and the simulators it has called -/
  | round (forward : Bool) (len : ℕ) (idx : List ℕ) (simulator : Option S) (called : List S)
  /-- user code: a callback; the simulator is in the local of the round -/
  | callback (index : ℕ) (sim : S)
  /-- user code: the destructor of a simulator that the teardown has popped -/
  | dropSim
  /-- a panic unwinds the frame below; user code: the destructors that run meanwhile -/
  | panic

inductive SimPhase
  /-- user code: everything up to `ContextInstallGuard::destroy` -/
  | running
  /-- user code: the destructors that run during `stop_simulation` in `destroy` -/
  | stopping
  /-- the `while let` of `destroy` -/
  | popping
  /-- the context has been taken -/
  | taken
deriving DecidableEq

/-- A use of the registry by user code, or its end. -/
inductive SimOp (S : Type)
  | addSimulator (simulator : S)
  | get (ty : SimTy)
  /-- `SimulatorHandle::with` -/
  | withSimulator (ty : SimTy)
  /-- `create_node`, or a `stop_node` or `start_node` that calls the simulators -/
  | round (cb : Callback) (forward : Bool)
  | stopSimulation
  | catchUnwind
  | panic
  | done

inductive SimLabel (S : Type)
  | user (op : SimOp S)
  | run
  | unwind

structure SimThread (S : Type) where
  reg : SimRegistry S
  owners : List S
  phase : SimPhase
  /-- `destroy` is called by `ContextInstallGuard::drop` while a panic unwinds the code of the simulation -/
  panicking : Bool
  stack : List (SimFrame S)

namespace SimThread

variable {S : Type} [Simulator S]

def install : SimThread S := ⟨.new, [], .running, false, []⟩

/-- Go on with the registry that a function leaves, or panic. -/
def after {A : Type} (s : SimThread S) (x : Except Panic A × SimRegistry S) (f : A → SimThread S → SimThread S) :
    SimThread S :=
  match x with
  | (.ok a, r) => f a { s with reg := r }
  | (.error _, r) => { s with reg := r, stack := .panic :: s.stack }

/-- User code is on top. -/
def inUser (s : SimThread S) : Bool :=
  match s.stack with
  | [] => s.phase = .running || s.phase = .stopping
  | .round .. :: _ => false
  | _ => true

/-- `for_all_simulators`, up to its loop; `push_new_node` comes before it in `create_node`. -/
def forAllSimulators (s : SimThread S) (cb : Callback) (forward : Bool) : SimThread S :=
  if cb = .create ∧ s.reg.finalStopping = true then { s with stack := .panic :: s.stack }
  else
    let len := s.reg.simulators.length
    { s with
      reg := { s.reg with nodeCount := if cb = .create then s.reg.nodeCount + 1 else s.reg.nodeCount }
      stack := .round forward len (SimRegistry.order forward len) none [] :: s.stack }

/-- User code returns. -/
def done (s : SimThread S) : Except Halt (SimThread S) :=
  match s.stack with
  | [] =>
    match s.phase with
    | .running => .ok { s with reg := { s.reg with finalStopping := true }, phase := .stopping }
    | .stopping => .ok { s with phase := .popping }
    | _ => .error .disabled
  | .catchUnwind :: rest | .dropSim :: rest => .ok { s with stack := rest }
  | .withSim i sim :: rest => .ok (({ s with stack := rest }).after (s.reg.replace i sim) fun _ s => s)
  | .callback i sim :: .round forward len idx _ called :: rest =>
    .ok (({ s with stack := .round forward len idx (some sim) called :: rest }).after (s.reg.swap i (some sim))
      fun old s => { s with stack := .round forward len idx old called :: rest })
  | _ => .error .disabled

def userOp (s : SimThread S) : SimOp S → Except Halt (SimThread S)
  | .addSimulator sim => .ok (s.after (s.reg.addSimulator sim) fun _ s => { s with owners := s.owners ++ [sim] })
  | .get ty => .ok (s.after (s.reg.get ty) fun _ s => s)
  | .withSimulator ty =>
    .ok (s.after (s.reg.withSimulatorOption ty) fun
      -- `f(None)`: `x.as_mut().unwrap()`
      | none, s => { s with stack := .panic :: s.stack }
      | some (i, sim), s =>
        if typeId sim = ty then { s with stack := .withSim i sim :: s.stack }
        -- `downcast_mut().unwrap()`, under the guard
        else { s with stack := .panic :: .withSim i sim :: s.stack })
  | .round cb forward => .ok (s.forAllSimulators cb forward)
  | .stopSimulation => .ok { s with reg := { s.reg with finalStopping := true } }
  | .catchUnwind => .ok { s with stack := .catchUnwind :: s.stack }
  | .panic => .ok { s with stack := .panic :: s.stack }
  | .done => s.done

/-- `drop(x.unwrap())`. -/
def dropUnwrap : Option S → SimFrame S
  | some _ => .dropSim
  | none => .panic

/-- `for_all_simulators` and the loop of `destroy`. -/
def runtime (s : SimThread S) : Except Halt (SimThread S) :=
  match s.stack with
  | .round forward len (i :: idx) simulator called :: rest =>
    .ok (s.after (s.reg.swap i simulator) fun
      | some sim, s => { s with stack := .callback i sim :: .round forward len idx none (called ++ [sim]) :: rest }
      -- `expect("simulator already mutably borrowed")`
      | none, s => { s with stack := .panic :: .round forward len (i :: idx) none called :: rest })
  | .round _ len [] _ _ :: rest =>
    .ok (if s.reg.simulators.length = len then { s with stack := rest } else { s with stack := .panic :: s.stack })
  | [] =>
    if s.phase = .popping then
      match s.reg.simulators.getLast? with
      | none => .ok { s with phase := .taken }
      | some x =>
        .ok { s with
          reg := { s.reg with simulators := s.reg.simulators.dropLast }
          owners := s.owners.dropLast
          stack := [dropUnwrap x] }
    else .error .disabled
  | _ => .error .disabled

/-- The panic on top leaves the frame below it. -/
def unwind (s : SimThread S) : Except Halt (SimThread S) :=
  match s.stack with
  | .panic :: .catchUnwind :: rest => .ok { s with stack := rest }
  | .panic :: .withSim i sim :: rest =>
    match s.reg.replace i sim with
    | (.ok _, r) => .ok { s with reg := r, stack := .panic :: rest }
    | (.error _, _) => .error .disabled
  | .panic :: .callback _ _ :: rest | .panic :: .round .. :: rest | .panic :: .dropSim :: rest =>
    .ok { s with stack := .panic :: rest }
  | [.panic] =>
    if s.panicking = true ∨ s.phase = .taken then .error .disabled
    else
      .ok { s with
        reg := { s.reg with finalStopping := true }
        phase := .stopping
        panicking := true
        stack := [] }
  | _ => .error .disabled

def step (s : SimThread S) : SimLabel S → Except Halt (SimThread S)
  | .user op => if s.inUser then s.userOp op else .error .disabled
  | .run => s.runtime
  | .unwind => s.unwind

/-! ## What a step can do -/

end SimThread

namespace SimFrame

variable {S : Type}

/-- The slot a frame has emptied, and the simulator from it. -/
def holds : SimFrame S → Option (ℕ × S)
  | .withSim i sim | .callback i sim => some (i, sim)
  | _ => none

/-- A round has called the simulators at the indices it has visited. -/
def Fits (owners : List S) : SimFrame S → Prop
  | .round forward len idx simulator called => simulator = none ∧ len ≤ owners.length ∧
      ∃ visited, SimRegistry.order forward len = visited ++ idx ∧ called = visited.filterMap (owners[·]?)
  | _ => True

end SimFrame

namespace SimThread

variable {S : Type}

/-- The slots that frames have emptied. -/
def holders (stack : List (SimFrame S)) : List (ℕ × S) := stack.filterMap SimFrame.holds

/-- The invariant of every run: a slot never holds a foreign simulator, and what a frame holds is missing in
its slot. -/
structure Held (s : SimThread S) : Prop where
  length : s.reg.simulators.length = s.owners.length
  owner : ∀ (i : ℕ) (sim : S), s.reg.simulators[i]? = some (some sim) → s.owners[i]? = some sim
  nodup : ((holders s.stack).map Prod.fst).Nodup
  taken : ∀ (i : ℕ) (sim : S), (i, sim) ∈ holders s.stack → s.reg.simulators[i]? = some none ∧
    s.owners[i]? = some sim
  rounds : ∀ f ∈ s.stack, f.Fits s.owners

section Held

variable {s : SimThread S} {i : ℕ} {sim : S}

/-- A guard puts its simulator back into an empty slot. -/
theorem Held.replace (h : s.Held) (hm : (i, sim) ∈ holders s.stack) :
    s.reg.replace i sim = (.ok (), { s.reg with simulators := s.reg.simulators.set i (some sim) }) := by
  simp [SimRegistry.replace, (h.taken i sim hm).1]

theorem Held.swap (h : s.Held) (hm : (i, sim) ∈ holders s.stack) :
    s.reg.swap i (some sim) = (.ok none, { s.reg with simulators := s.reg.simulators.set i (some sim) }) := by
  simp [SimRegistry.swap, (h.taken i sim hm).1]

/-- The frames of a step that leaves the owners alone. -/
theorem Held.fits (h : s.Held) {stack : List (SimFrame S)} (hf : ∀ f ∈ stack, f ∈ s.stack ∨ f.Fits s.owners) :
    ∀ f ∈ stack, f.Fits s.owners := fun f hm => (hf f hm).elim (h.rounds f) id

/-- The frame on top holds the only simulator of its index. -/
theorem Held.fresh (h : s.Held) {stack : List (SimFrame S)} (hh : holders s.stack = (i, sim) :: holders stack)
    (sim' : S) : (i, sim') ∉ holders stack := by
  have hnd := h.nodup
  rw [hh, List.map_cons, List.nodup_cons] at hnd
  exact fun hm => hnd.1 (List.mem_map.mpr ⟨_, hm, rfl⟩)

theorem Held.tail (h : s.Held) {stack : List (SimFrame S)} (hh : holders s.stack = (i, sim) :: holders stack) :
    ((holders stack).map Prod.fst).Nodup := by
  have hnd := h.nodup
  rw [hh, List.map_cons] at hnd
  exact hnd.of_cons

end Held

section Frames

variable {f : SimFrame S} {stack : List (SimFrame S)} {owners : List S} {i : ℕ} {sim : S}

@[simp] theorem holders_nil : holders ([] : List (SimFrame S)) = [] := rfl

theorem holders_cons_none (h : f.holds = none) : holders (f :: stack) = holders stack := by simp [holders, h]

theorem holders_cons_some (h : f.holds = some (i, sim)) : holders (f :: stack) = (i, sim) :: holders stack := by
  simp [holders, h]

@[simp] theorem mem_order {forward : Bool} {len : ℕ} : i ∈ SimRegistry.order forward len ↔ i < len := by
  unfold SimRegistry.order
  split_ifs <;> simp

/-- A simulator that is added does not touch the rounds that are open. -/
theorem fits_append (h : f.Fits owners) (sim : S) : f.Fits (owners ++ [sim]) := by
  cases f with
  | round forward len idx simulator called =>
    obtain ⟨rfl, hlen, visited, ho, rfl⟩ := h
    refine ⟨rfl, by simp; omega, visited, ho, ?_⟩
    refine (List.filterMap_congr fun i hi => ?_).symm
    have hi : i < len := mem_order.mp (ho ▸ List.mem_append_left _ hi)
    rw [List.getElem?_append_left (by omega)]
  | _ => trivial

/-- A round that has visited every index has called every simulator, in its order. -/
theorem order_filterMap (forward : Bool) (owners : List S) :
    (SimRegistry.order forward owners.length).filterMap (owners[·]?) =
    if forward then owners else owners.reverse := by
  have h : (List.range owners.length).filterMap (owners[·]?) = owners := by
    induction owners using List.reverseRecOn with
    | nil => rfl
    | append_singleton owners sim ih =>
      rw [List.length_append, List.length_singleton, List.range_succ, List.filterMap_append]
      have hold : (List.range owners.length).filterMap ((owners ++ [sim])[·]?) = owners := by
        refine (List.filterMap_congr fun i hi => ?_).trans ih
        rw [List.getElem?_append_left (List.mem_range.mp hi)]
      rw [hold]
      simp
  unfold SimRegistry.order
  cases forward with
  | true => simpa using h
  | false => simp [List.filterMap_reverse, h]

end Frames

/-- What a step can do to the slots and their holders. -/
inductive Next [Simulator S] (s : SimThread S) : SimLabel S → SimThread S → Prop
  /-- nothing -/
  | same (l : SimLabel S) (s' : SimThread S) (hs : s'.reg.simulators = s.reg.simulators)
      (hb : s'.reg.simulatorsByType = s.reg.simulatorsByType) (ho : s'.owners = s.owners)
      (hh : holders s'.stack = holders s.stack) (hf : ∀ f ∈ s'.stack, f ∈ s.stack ∨ f.Fits s.owners) : Next s l s'
  | add (sim : S) (hn : s.reg.simulatorsByType (typeId sim) = none) :
      Next s (.user (.addSimulator sim)) { s with
        reg := { s.reg with
          simulators := s.reg.simulators ++ [some sim]
          simulatorsByType := Function.update s.reg.simulatorsByType (typeId sim) (some s.reg.simulators.length) }
        owners := s.owners ++ [sim] }
  /-- the index of a registered type is overwritten -/
  | addTwice (sim : S) (h1 : s.reg.nodeCount = 1) (hf : s.reg.finalStopping = false)
      (hn : s.reg.simulatorsByType (typeId sim) ≠ none) :
      Next s (.user (.addSimulator sim)) { s with
        reg := { s.reg with
          simulatorsByType := Function.update s.reg.simulatorsByType (typeId sim) (some s.reg.simulators.length) }
        stack := .panic :: s.stack }
  | take (l : SimLabel S) (i : ℕ) (sim : S) (stack : List (SimFrame S))
      (hs : s.reg.simulators[i]? = some (some sim))
      (hh : holders stack = (i, sim) :: holders s.stack) (hf : ∀ f ∈ stack, f ∈ s.stack ∨ f.Fits s.owners) :
      Next s l { s with reg := { s.reg with simulators := s.reg.simulators.set i none }, stack := stack }
  | putBack (l : SimLabel S) (i : ℕ) (sim : S) (stack : List (SimFrame S))
      (hh : holders s.stack = (i, sim) :: holders stack) (hf : ∀ f ∈ stack, f ∈ s.stack ∨ f.Fits s.owners) :
      Next s l { s with reg := { s.reg with simulators := s.reg.simulators.set i (some sim) }, stack := stack }
  /-- the local of a round is dropped with the simulator in it -/
  | lose (i : ℕ) (sim : S) (rest : List (SimFrame S)) (hk : s.stack = .panic :: .callback i sim :: rest) :
      Next s .unwind { s with stack := .panic :: rest }
  | pop (x : Option S) (hp : s.phase = .popping) (hk : s.stack = []) (hx : s.reg.simulators.getLast? = some x) :
      Next s .run { s with
        reg := { s.reg with simulators := s.reg.simulators.dropLast }
        owners := s.owners.dropLast
        stack := [dropUnwrap x] }

variable [Simulator S] {s s' : SimThread S} {l : SimLabel S}

section Invert

theorem done_next (hH : s.Held) (h : s.done = .ok s') : Next s (.user .done) s' := by
  unfold done at h
  split at h
  · -- the code of the simulation, or `stop_simulation`, ends
    split at h
    · cases h
      exact .same _ _ rfl rfl rfl rfl fun f hf => Or.inl hf
    · cases h
      exact .same _ _ rfl rfl rfl rfl fun f hf => Or.inl hf
    · cases h
  · next rest hk =>
    cases h
    exact .same _ _ rfl rfl rfl (by rw [hk, holders_cons_none rfl])
      fun f hf => Or.inl (hk ▸ List.mem_cons_of_mem _ hf)
  · next rest hk =>
    cases h
    exact .same _ _ rfl rfl rfl (by rw [hk, holders_cons_none rfl])
      fun f hf => Or.inl (hk ▸ List.mem_cons_of_mem _ hf)
  · next i sim rest hk =>
    have hm : (i, sim) ∈ holders s.stack := by rw [hk, holders_cons_some rfl]; exact List.mem_cons_self
    rw [hH.replace hm] at h
    cases h
    exact .putBack _ i sim rest (by rw [hk, holders_cons_some rfl])
      fun f hf => Or.inl (hk ▸ List.mem_cons_of_mem _ hf)
  · next i sim forward len idx x called rest hk =>
    have hm : (i, sim) ∈ holders s.stack := by rw [hk, holders_cons_some rfl]; exact List.mem_cons_self
    rw [hH.swap hm] at h
    cases h
    refine .putBack _ i sim _ (by rw [hk, holders_cons_some rfl]; rfl) fun f hf => Or.inl ?_
    -- the local is `None` again
    have hfits := hH.rounds (.round forward len idx x called) (by simp [hk])
    obtain rfl : x = none := hfits.1
    exact hk ▸ List.mem_cons_of_mem _ hf
  · cases h

theorem userOp_next {op : SimOp S} (hH : s.Held) (h : s.userOp op = .ok s') : Next s (.user op) s' := by
  have hpush : ∀ {f g : SimFrame S}, g.Fits s.owners → f ∈ g :: s.stack → f ∈ s.stack ∨ f.Fits s.owners := by
    intro f g hg hf
    rcases List.mem_cons.mp hf with rfl | hf
    · exact Or.inr hg
    · exact Or.inl hf
  have hpanic : ∀ {op : SimOp S}, Next s (.user op) { s with stack := .panic :: s.stack } :=
    .same _ _ rfl rfl rfl (holders_cons_none rfl) fun f => hpush trivial
  cases op with
  | addSimulator sim =>
    simp only [userOp, SimRegistry.addSimulator] at h
    split_ifs at h with hg hn
    · cases h
      exact .add sim (by simpa using hn)
    · cases h
      exact .addTwice sim hg.1 hg.2 (by simpa using hn)
    · cases h
      exact hpanic
  | get ty =>
    simp only [userOp, SimRegistry.get] at h
    split_ifs at h
    · cases h
      exact .same _ _ rfl rfl rfl rfl fun f => Or.inl
    · cases h
      exact hpanic
  | withSimulator ty =>
    simp only [userOp, SimRegistry.withSimulatorOption] at h
    split at h
    · cases h
      exact hpanic
    · next i hi =>
      cases hsl : s.reg.simulators[i]? with
      | none =>
        rw [hsl] at h
        cases h
        exact hpanic
      | some x =>
        rw [hsl] at h
        cases x with
        | none =>
          cases h
          exact hpanic
        | some sim =>
          simp only [after] at h
          split_ifs at h
          · cases h
            exact .take _ i sim _ hsl (holders_cons_some rfl) fun f => hpush trivial
          · cases h
            refine .take _ i sim _ hsl (holders_cons_none rfl) fun f hf => ?_
            rcases List.mem_cons.mp hf with rfl | hf
            · exact Or.inr trivial
            · exact hpush (g := .withSim i sim) trivial hf
  | round cb forward =>
    simp only [userOp, forAllSimulators] at h
    split_ifs at h
    · cases h
      exact hpanic
    all_goals
      cases h
      refine .same _ _ rfl rfl rfl (holders_cons_none rfl) fun f => hpush ⟨rfl, hH.length.le, [], rfl, rfl⟩
  | stopSimulation =>
    cases h
    exact .same _ _ rfl rfl rfl rfl fun f => Or.inl
  | catchUnwind =>
    cases h
    exact .same _ _ rfl rfl rfl (holders_cons_none rfl) fun f => hpush trivial
  | panic =>
    cases h
    exact hpanic
  | done => exact done_next hH h

theorem runtime_next (hH : s.Held) (h : s.runtime = .ok s') : Next s .run s' := by
  unfold runtime at h
  split at h
  · next forward len i idx x called rest hk =>
    have hfits := hH.rounds (.round forward len (i :: idx) x called) (by simp [hk])
    obtain ⟨rfl, hlen, visited, ho, rfl⟩ := hfits
    have hi : i < len := mem_order.mp (ho ▸ List.mem_append_right _ List.mem_cons_self)
    have hi' : i < s.reg.simulators.length := by rw [hH.length]; omega
    have hsw : s.reg.swap i none =
        (.ok s.reg.simulators[i], { s.reg with simulators := s.reg.simulators.set i none }) := by
      simp [SimRegistry.swap, hi']
    rw [hsw] at h
    have hrest : ∀ f ∈ rest, f ∈ s.stack := fun f hf => hk ▸ List.mem_cons_of_mem _ hf
    cases hsl : s.reg.simulators[i] with
    | none =>
      -- the swap has changed nothing
      rw [hsl] at h
      cases h
      have hset : s.reg.simulators.set i none = s.reg.simulators := by
        conv_lhs => rw [← hsl]
        exact List.set_getElem_self hi'
      refine .same _ _ hset rfl rfl (by rw [hk]; rfl) fun f hf => ?_
      rcases List.mem_cons.mp hf with rfl | hf
      · exact Or.inr trivial
      · exact Or.inl (hk ▸ hf)
    | some sim =>
      rw [hsl] at h
      cases h
      have hs : s.reg.simulators[i]? = some (some sim) := by rw [List.getElem?_eq_getElem hi', hsl]
      refine .take _ i sim _ hs (by rw [hk]; rfl) fun f hf => ?_
      rcases List.mem_cons.mp hf with rfl | hf
      · exact Or.inr trivial
      rcases List.mem_cons.mp hf with rfl | hf
      · exact Or.inr ⟨rfl, hlen, visited ++ [i], by simp [ho], by simp [hH.owner i sim hs]⟩
      · exact Or.inl (hrest f hf)
  · next forward len x called rest hk =>
    split_ifs at h
    · cases h
      exact .same _ _ rfl rfl rfl (by rw [hk]; rfl) fun f hf => Or.inl (hk ▸ List.mem_cons_of_mem _ hf)
    · cases h
      refine .same _ _ rfl rfl rfl rfl fun f hf => ?_
      rcases List.mem_cons.mp hf with rfl | hf
      · exact Or.inr trivial
      · exact Or.inl hf
  · next hk =>
    split_ifs at h with hp
    cases hx : s.reg.simulators.getLast? with
    | none =>
      rw [hx] at h
      cases h
      exact .same _ _ rfl rfl rfl rfl fun f => Or.inl
    | some x =>
      rw [hx] at h
      cases h
      exact .pop x hp hk hx
  · cases h

theorem unwind_next (hH : s.Held) (h : s.unwind = .ok s') : Next s .unwind s' := by
  have hsame : ∀ {rest : List (SimFrame S)}, holders rest = holders s.stack → (∀ f ∈ rest, f ∈ s.stack) →
      Next s .unwind { s with stack := rest } := fun hh hf => .same _ _ rfl rfl rfl hh fun f h => Or.inl (hf f h)
  unfold unwind at h
  split at h
  · next rest hk =>
    cases h
    exact hsame (by rw [hk]; rfl) fun f hf => by simp [hk, hf]
  · next i sim rest hk =>
    have hm : (i, sim) ∈ holders s.stack := by simp [hk, holders, SimFrame.holds]
    rw [hH.replace hm] at h
    cases h
    refine .putBack _ i sim _ (by rw [hk]; rfl) fun f hf => Or.inl ?_
    rw [hk]
    rcases List.mem_cons.mp hf with rfl | hf
    · exact List.mem_cons_self
    · exact List.mem_cons_of_mem _ (List.mem_cons_of_mem _ hf)
  · next i sim rest hk =>
    cases h
    exact .lose i sim rest hk
  · next forward len idx x called rest hk =>
    cases h
    refine hsame (by rw [hk]; rfl) fun f hf => ?_
    rw [hk]
    rcases List.mem_cons.mp hf with rfl | hf
    · exact List.mem_cons_self
    · exact List.mem_cons_of_mem _ (List.mem_cons_of_mem _ hf)
  · next rest hk =>
    cases h
    refine hsame (by rw [hk]; rfl) fun f hf => ?_
    rw [hk]
    rcases List.mem_cons.mp hf with rfl | hf
    · exact List.mem_cons_self
    · exact List.mem_cons_of_mem _ (List.mem_cons_of_mem _ hf)
  · next hk =>
    split_ifs at h
    cases h
    exact .same _ _ rfl rfl rfl (by rw [hk]; rfl) fun f hf => absurd hf List.not_mem_nil
  · cases h

theorem step_next (hH : s.Held) (h : s.step l = .ok s') : Next s l s' := by
  cases l with
  | user op =>
    simp only [step] at h
    split_ifs at h
    exact userOp_next hH h
  | run => exact runtime_next hH h
  | unwind => exact unwind_next hH h

end Invert

/-! ## The slots -/

section Slots

theorem Next.held (h : Next s l s') (hH : s.Held) : s'.Held := by
  cases h with
  | same l s' hs hb ho hh hf =>
    exact ⟨by rw [hs, ho, hH.length], by rw [hs, ho]; exact hH.owner, by rw [hh]; exact hH.nodup,
      by rw [hs, ho, hh]; exact hH.taken, by rw [ho]; exact hH.fits hf⟩
  | add sim hn =>
    refine ⟨by simp [hH.length], fun i sim' hi => ?_, hH.nodup, fun i sim' hm => ?_,
      fun f hf => fits_append (hH.rounds f hf) sim⟩
    · by_cases hlt : i < s.reg.simulators.length
      · rw [List.getElem?_append_left hlt] at hi
        rw [List.getElem?_append_left (hH.length ▸ hlt)]
        exact hH.owner i sim' hi
      · rw [List.getElem?_append_right (by omega), hH.length] at hi
        rw [List.getElem?_append_right (by rw [← hH.length]; omega)]
        simpa [List.getElem?_singleton] using hi
    · obtain ⟨h1, h2⟩ := hH.taken i sim' hm
      have hlt : i < s.reg.simulators.length := (List.getElem?_eq_some_iff.mp h1).1
      exact ⟨by rw [List.getElem?_append_left hlt]; exact h1,
        by rw [List.getElem?_append_left (hH.length ▸ hlt)]; exact h2⟩
  | addTwice sim h1 hf hn =>
    refine ⟨hH.length, hH.owner, hH.nodup, hH.taken, fun f hf => ?_⟩
    rcases List.mem_cons.mp hf with rfl | hf
    · trivial
    · exact hH.rounds f hf
  | take l i sim stack hs hh hf =>
    have hlt : i < s.reg.simulators.length := (List.getElem?_eq_some_iff.mp hs).1
    have hne : ∀ j sim', (j, sim') ∈ holders s.stack → j ≠ i := by
      rintro j sim' hm rfl
      have h := (hH.taken j sim' hm).1
      rw [hs] at h
      cases h
    refine ⟨by simp [hH.length], fun j sim' hj => ?_, ?_, fun j sim' hm => ?_, hH.fits hf⟩
    · by_cases hji : i = j
      · rw [hji, List.getElem?_set_self (by omega)] at hj
        cases hj
      · rw [List.getElem?_set_ne hji] at hj
        exact hH.owner j sim' hj
    · rw [hh, List.map_cons, List.nodup_cons]
      refine ⟨fun hm => ?_, hH.nodup⟩
      obtain ⟨⟨j, sim'⟩, hm, hji⟩ := List.mem_map.mp hm
      exact hne j sim' hm hji
    · rw [hh] at hm
      rcases List.mem_cons.mp hm with heq | hm
      · cases heq
        exact ⟨List.getElem?_set_self hlt, hH.owner _ _ hs⟩
      · rw [List.getElem?_set_ne (hne j sim' hm).symm]
        exact hH.taken j sim' hm
  | putBack l i sim stack hh hf =>
    have hown := (hH.taken i sim (hh ▸ List.mem_cons_self)).2
    refine ⟨by simp [hH.length], fun j sim' hj => ?_, hH.tail hh, fun j sim' hm => ?_, hH.fits hf⟩
    · by_cases hji : i = j
      · subst hji
        have hlt : i < s.reg.simulators.length := by
          rw [hH.length]
          exact (List.getElem?_eq_some_iff.mp hown).1
        rw [List.getElem?_set_self hlt] at hj
        cases hj
        exact hown
      · rw [List.getElem?_set_ne hji] at hj
        exact hH.owner j sim' hj
    · have hne : i ≠ j := by
        rintro rfl
        exact hH.fresh hh sim' hm
      rw [List.getElem?_set_ne hne]
      exact hH.taken j sim' (hh ▸ List.mem_cons_of_mem _ hm)
  | lose i sim rest hk =>
    have hh : holders s.stack = (i, sim) :: holders (.panic :: rest) := by rw [hk]; rfl
    refine ⟨hH.length, hH.owner, hH.tail hh, fun j sim' hm => ?_, fun f hf => ?_⟩
    · exact hH.taken j sim' (hh ▸ List.mem_cons_of_mem _ hm)
    · refine hH.rounds f ?_
      rw [hk]
      rcases List.mem_cons.mp hf with rfl | hf
      · exact List.mem_cons_self
      · exact List.mem_cons_of_mem _ (List.mem_cons_of_mem _ hf)
  | pop x hp hk hx =>
    have hnone : holders [dropUnwrap x] = [] := by cases x <;> rfl
    refine ⟨by simp [hH.length], fun i sim hi => ?_, by rw [hnone]; exact List.nodup_nil, fun i sim hm => ?_,
      fun f hf => ?_⟩
    · rw [List.getElem?_dropLast] at hi ⊢
      split_ifs at hi with hlt
      rw [if_pos (by rw [← hH.length]; exact hlt)]
      exact hH.owner i sim hi
    · rw [hnone] at hm
      cases hm
    · rw [List.mem_singleton.mp hf]
      cases x <;> trivial

omit [Simulator S] in
theorem install_held : (install : SimThread S).Held :=
  ⟨rfl, fun i sim h => by simp [install, SimRegistry.new] at h, List.nodup_nil,
    fun i sim h => absurd h List.not_mem_nil, fun f h => absurd h List.not_mem_nil⟩

theorem held_of_run {ls : List (SimLabel S)} (h : Machine.run step install ls = .ok s) : s.Held :=
  Machine.Steps.inv (fun _ _ _ hH hst => (step_next hH hst).held hH) ⟨ls, h⟩ install_held

/-- No slot is empty but those that a frame has emptied. -/
def Intact (s : SimThread S) : Prop := ∀ i, s.reg.simulators[i]? = some none → ∃ sim, (i, sim) ∈ holders s.stack

/-- The step does not unwind a callback of a round. -/
def Spares (s : SimThread S) (l : SimLabel S) : Prop :=
  ∀ i sim rest, l = .unwind → s.stack ≠ .panic :: .callback i sim :: rest

theorem Next.intact (h : Next s l s') (hI : s.Intact) (hl : s.Spares l) : s'.Intact := by
  cases h with
  | same l s' hs hb ho hh hf =>
    intro i hi
    rw [hh]
    exact hI i (hs ▸ hi)
  | add sim hn =>
    intro i hi
    by_cases hlt : i < s.reg.simulators.length
    · rw [List.getElem?_append_left hlt] at hi
      exact hI i hi
    · rw [List.getElem?_append_right (by omega)] at hi
      simp [List.getElem?_singleton] at hi
  | addTwice sim h1 hf hn => exact hI
  | take l i sim stack hs hh hf =>
    intro j hj
    rw [hh]
    by_cases hji : i = j
    · exact ⟨sim, hji ▸ List.mem_cons_self⟩
    · rw [List.getElem?_set_ne hji] at hj
      obtain ⟨sim', hm⟩ := hI j hj
      exact ⟨sim', List.mem_cons_of_mem _ hm⟩
  | putBack l i sim stack hh hf =>
    intro j hj
    by_cases hji : i = j
    · subst hji
      have hlt := (List.getElem?_eq_some_iff.mp hj).1
      rw [List.length_set] at hlt
      rw [List.getElem?_set_self hlt] at hj
      cases hj
    · rw [List.getElem?_set_ne hji] at hj
      obtain ⟨sim', hm⟩ := hI j hj
      rw [hh] at hm
      rcases List.mem_cons.mp hm with heq | hm
      · cases heq
        exact absurd rfl hji
      · exact ⟨sim', hm⟩
  | lose i sim rest hk => exact absurd hk (hl i sim rest rfl)
  | pop x hp hk hx =>
    intro i hi
    rw [List.getElem?_dropLast] at hi
    split_ifs at hi
    obtain ⟨sim, hm⟩ := hI i hi
    rw [hk] at hm
    cases hm

/-- The slot of a callback that is unwound stays empty. -/
theorem not_intact_of_unwound (hH : s.Held) {i : ℕ} {sim : S} {rest : List (SimFrame S)}
    (hk : s.stack = .panic :: .callback i sim :: rest) (h : s.step .unwind = .ok s') : ¬ s'.Intact := by
  have hh : holders s.stack = (i, sim) :: holders (.panic :: rest) := by rw [hk]; rfl
  simp only [step, unwind, hk] at h
  cases h
  intro hI
  obtain ⟨sim', hm⟩ := hI i (hH.taken i sim (hh ▸ List.mem_cons_self)).1
  exact hH.fresh hh sim' hm

/-- What the registry owes its users. -/
structure Undisturbed (s : SimThread S) : Prop where
  length : s.reg.simulators.length = s.owners.length
  /-- while its callback or closure runs, the slot of a simulator is empty -/
  running : ∀ (i : ℕ) (sim : S), (i, sim) ∈ holders s.stack →
    s.owners[i]? = some sim ∧ s.reg.simulators[i]? = some none
  /-- otherwise the slot holds the simulator that was added there -/
  holds : ∀ (i : ℕ) (sim : S), s.owners[i]? = some sim → (i, sim) ∉ holders s.stack →
    s.reg.simulators[i]? = some (some sim)
  /-- a round that returns has called every simulator once, in its order -/
  called : ∀ forward len x called rest, s.stack = .round forward len [] x called :: rest →
    s.step .run = .ok { s with stack := rest } → called = if forward then s.owners else s.owners.reverse
  /-- with no access open, there is no slot that a round or the teardown would fail on -/
  full : s.stack = [] → none ∉ s.reg.simulators

theorem Held.undisturbed (hH : s.Held) : s.Undisturbed ↔ s.Intact := by
  constructor
  · intro h i hi
    have hlt : i < s.owners.length := by
      rw [← h.length]
      exact (List.getElem?_eq_some_iff.mp hi).1
    by_contra hno
    have hslot := h.holds i _ (List.getElem?_eq_getElem hlt) fun hm => hno ⟨_, hm⟩
    rw [hi] at hslot
    cases hslot
  · intro hI
    refine ⟨hH.length, fun i sim hm => (hH.taken i sim hm).symm, fun i sim ho hm => ?_, ?_, fun hk hmem => ?_⟩
    · have hlt : i < s.reg.simulators.length := by
        rw [hH.length]
        exact (List.getElem?_eq_some_iff.mp ho).1
      cases hx : s.reg.simulators[i] with
      | none =>
        obtain ⟨sim', hm'⟩ := hI i (by rw [List.getElem?_eq_getElem hlt, hx])
        have ho' := (hH.taken i sim' hm').2
        rw [ho] at ho'
        cases ho'
        exact absurd hm' hm
      | some sim' =>
        have hs : s.reg.simulators[i]? = some (some sim') := by rw [List.getElem?_eq_getElem hlt, hx]
        have ho' := hH.owner i sim' hs
        rw [ho] at ho'
        cases ho'
        exact hs
    · intro forward len x called rest hk hst
      obtain ⟨-, -, visited, ho, hcalled⟩ := hH.rounds (.round forward len [] x called) (by simp [hk])
      have hlen : s.owners.length = len := by
        rw [← hH.length]
        simp only [step, runtime, hk] at hst
        split_ifs at hst with hlen
        · exact hlen
        · -- the assertion fails, and the round does not return
          have hstack := congrArg (fun s : SimThread S => s.stack.length) (Except.ok.inj hst)
          simp at hstack
          omega
      rw [List.append_nil] at ho
      rw [hcalled, ← ho, ← hlen]
      exact order_filterMap forward s.owners
    · obtain ⟨i, hi⟩ := List.mem_iff_getElem?.mp hmem
      obtain ⟨sim, hm⟩ := hI i hi
      rw [hk] at hm
      cases hm

/-- **The registry survives what is thrown at it, but for a panic out of a callback.**  In every run in which
no panic leaves the callback of a round, with accesses and rounds nested and unwound at will, the registry is
undisturbed; and there it is undisturbed after a step if and only if that step does not unwind a callback. -/
theorem registry_undisturbed {ls : List (SimLabel S)} (hrun : Machine.run step install ls = .ok s)
    (hls : Machine.Along step Spares install ls) :
    s.Undisturbed ∧ ∀ l s', s.step l = .ok s' → (s'.Undisturbed ↔ s.Spares l) := by
  have hH := held_of_run hrun
  have hI : s.Intact := by
    refine (hls.inv (I := fun s => s.Held ∧ s.Intact) (fun m l m' hm hl hst => ?_) hrun ⟨install_held, ?_⟩).2
    · have hn := step_next hm.1 hst
      exact ⟨hn.held hm.1, hn.intact hm.2 hl⟩
    · intro i hi
      simp [install, SimRegistry.new] at hi
  refine ⟨hH.undisturbed.mpr hI, fun l s' hst => ?_⟩
  have hn := step_next hH hst
  rw [(hn.held hH).undisturbed]
  refine ⟨fun hI' i sim rest hl hk => ?_, hn.intact hI⟩
  subst hl
  exact not_intact_of_unwound hH hk hst hI'

/-- `SimTy` as simulators that are no more than their type. -/
instance : Simulator SimTy := ⟨id⟩

/-- An access nested in an access to the same simulator panics and is caught; then a node is created. -/
def caughtRun : List (SimLabel SimTy) :=
  [.user (.addSimulator 7), .user .catchUnwind, .user (.withSimulator 7), .user (.withSimulator 7), .unwind,
    .unwind, .user (.round .create true), .run, .user .done]

theorem caught_spares : Machine.Along step Spares install caughtRun := by
  have huser : ∀ {s : SimThread SimTy} {op : SimOp SimTy}, s.Spares (.user op) := fun _ _ _ h => nomatch h
  refine ⟨huser, fun m hm => ?_⟩
  cases hm
  refine ⟨huser, fun m hm => ?_⟩
  cases hm
  refine ⟨huser, fun m hm => ?_⟩
  cases hm
  refine ⟨huser, fun m hm => ?_⟩
  cases hm
  refine ⟨fun _ _ _ _ h => (nomatch h), fun m hm => ?_⟩
  cases hm
  refine ⟨fun _ _ _ _ h => (nomatch h), fun m hm => ?_⟩
  cases hm
  refine ⟨huser, fun m hm => ?_⟩
  cases hm
  refine ⟨fun _ _ _ h => (nomatch h), fun m hm => ?_⟩
  cases hm
  exact ⟨huser, fun _ _ => trivial⟩

theorem registry_undisturbed_caught : ∃ s : SimThread SimTy, Machine.run step install caughtRun = .ok s ∧
    s.stack = [.round true 1 [] none [7]] ∧ s.Undisturbed := by
  obtain ⟨s, hs, hq⟩ : ∃ s : SimThread SimTy, Machine.run step install caughtRun = .ok s ∧
      s.stack = [.round true 1 [] none [7]] := Machine.exists_of_run rfl
  exact ⟨s, hs, hq, (registry_undisturbed hs caught_spares).1⟩

/-- A callback panics and is caught. -/
def thrownRun : List (SimLabel SimTy) :=
  [.user (.addSimulator 7), .user .catchUnwind, .user (.round .create true), .run, .user .panic, .unwind,
    .unwind, .unwind]

/-- The simulator is gone: the next round panics, and with it the `stop_simulation` of the teardown. -/
theorem thrown_simulator_lost :
    (∃ s : SimThread SimTy, Machine.run step install thrownRun = .ok s ∧ s.owners = [7] ∧ s.stack = [] ∧
      s.reg.simulators = [none] ∧ ¬ s.Undisturbed) ∧
    ∃ s : SimThread SimTy,
      Machine.run step install (thrownRun ++ [.user .done, .user (.round .stop false), .run]) = .ok s ∧
      s.phase = .stopping ∧ s.stack = [.panic, .round false 1 [0] none []] := by
  constructor
  · obtain ⟨s, hs, hq⟩ : ∃ s : SimThread SimTy, Machine.run step install thrownRun = .ok s ∧
        (s.owners, s.stack, s.reg.simulators) = ([7], [], [none]) := Machine.exists_of_run rfl
    simp only [Prod.mk.injEq] at hq
    obtain ⟨ho, hk, hsl⟩ := hq
    exact ⟨s, hs, ho, hk, hsl, fun h => h.full hk (by simp [hsl])⟩
  · obtain ⟨s, hs, hq⟩ : ∃ s : SimThread SimTy,
        Machine.run step install (thrownRun ++ [.user .done, .user (.round .stop false), .run]) = .ok s ∧
        (s.phase, s.stack) = (.stopping, [.panic, .round false 1 [0] none []]) := Machine.exists_of_run rfl
    simp only [Prod.mk.injEq] at hq
    exact ⟨s, hs, hq⟩

end Slots

/-! ## The index -/

section Index

/-- The map knows the simulators of the vector, and no others. -/
def Mapped (s : SimThread S) : Prop :=
  ∀ ty i, s.reg.simulatorsByType ty = some i ↔ ∃ sim, s.owners[i]? = some sim ∧ typeId sim = ty

/-- The step does not add a simulator of a type that is registered, past the first assertion of
`add_simulator`, and pops no simulator. -/
def KeepsMap (s : SimThread S) (l : SimLabel S) : Prop :=
  (∀ sim, l = .user (.addSimulator sim) → s.reg.nodeCount = 1 → s.reg.finalStopping = false →
    s.reg.simulatorsByType (typeId sim) = none) ∧
  (l = .run → s.phase = .popping → s.stack = [] → s.reg.simulators = [])

/-- Nor does it unwind a callback of a round, which loses the simulator. -/
def KeepsIndex (s : SimThread S) (l : SimLabel S) : Prop := s.KeepsMap l ∧ s.Spares l

theorem Next.mapped (h : Next s l s') (hH : s.Held) (hM : s.Mapped) (hk : s.KeepsMap l) : s'.Mapped := by
  cases h with
  | same l s' hs hb ho hh hf =>
    intro ty i
    rw [hb, ho]
    exact hM ty i
  | add sim hn =>
    intro ty i
    have hnew : ∀ sim', s.owners[i]? = some sim' → typeId sim' ≠ typeId sim := fun sim' h heq => by
      have h' := (hM (typeId sim) i).mpr ⟨sim', h, heq⟩
      rw [hn] at h'
      cases h'
    simp only [hH.length]
    by_cases hty : ty = typeId sim
    · subst hty
      rw [Function.update_self]
      constructor
      · rintro h
        cases h
        exact ⟨sim, by simp, rfl⟩
      · rintro ⟨sim', h, heq⟩
        by_cases hlt : i < s.owners.length
        · rw [List.getElem?_append_left hlt] at h
          exact absurd heq (hnew sim' h)
        · have hi := (List.getElem?_eq_some_iff.mp h).1
          rw [List.length_append, List.length_singleton] at hi
          rw [show s.owners.length = i by omega]
    · rw [Function.update_of_ne hty, hM ty i]
      constructor
      · rintro ⟨sim', h, heq⟩
        exact ⟨sim', by rw [List.getElem?_append_left (List.getElem?_eq_some_iff.mp h).1]; exact h, heq⟩
      · rintro ⟨sim', h, heq⟩
        by_cases hlt : i < s.owners.length
        · rw [List.getElem?_append_left hlt] at h
          exact ⟨sim', h, heq⟩
        · rw [List.getElem?_append_right (by omega), List.getElem?_singleton] at h
          split_ifs at h
          cases h
          exact absurd heq.symm hty
  | addTwice sim h1 hf hn => exact absurd (hk.1 sim rfl h1 hf) hn
  | take l i sim stack hs hh hf => exact hM
  | putBack l i sim stack hh hf => exact hM
  | lose i sim rest hk => exact hM
  | pop x hp hstack hx =>
    rw [hk.2 rfl hp hstack] at hx
    cases hx

/-- The two ways to break the map. -/
theorem not_mapped (hH : s.Held) (hM : s.Mapped) (h : s.step l = .ok s') (hk : ¬ s.KeepsMap l) : ¬ s'.Mapped := by
  rw [KeepsMap, not_and_or] at hk
  rcases hk with hk | hk
  · push Not at hk
    obtain ⟨sim, rfl, h1, hf, hn⟩ := hk
    simp only [step, userOp, SimRegistry.addSimulator, h1, hf] at h
    split_ifs at h with hu hg hno
    · simp at hno
      exact absurd hno hn
    · cases h
      -- the type is mapped to the end of the vector
      intro hM'
      obtain ⟨sim', h', -⟩ := (hM' (typeId sim) s.reg.simulators.length).mp (by simp [after])
      have hlt := (List.getElem?_eq_some_iff.mp h').1
      simp only [after, hH.length] at hlt
      omega
    · exact absurd ⟨trivial, trivial⟩ hg
  · push Not at hk
    obtain ⟨rfl, hp, hstack, hne⟩ := hk
    have hpos : 0 < s.owners.length := by
      rw [← hH.length]
      exact List.length_pos_iff.mpr hne
    obtain ⟨x, hx⟩ : ∃ x, s.reg.simulators.getLast? = some x := ⟨_, List.getLast?_eq_some_getLast hne⟩
    simp only [step, runtime, hstack, hp, if_true, hx] at h
    cases h
    -- the last simulator is still in the map
    intro hM'
    have hlt : s.owners.length - 1 < s.owners.length := by omega
    have hlast := List.getElem?_eq_getElem hlt
    obtain ⟨sim', h', -⟩ := (hM' _ _).mp ((hM _ _).mpr ⟨_, hlast, rfl⟩)
    have hlt' := (List.getElem?_eq_some_iff.mp h').1
    simp only [List.length_dropLast] at hlt'
    omega

/-- What the index owes to `SimulatorHandle`. -/
structure Indexed (s : SimThread S) : Prop where
  length : s.reg.simulators.length = s.owners.length
  /-- a type is mapped to a position with a simulator of that type, unless a callback or closure that runs has
  it -/
  sound : ∀ ty i, s.reg.simulatorsByType ty = some i → ∃ sim, s.owners[i]? = some sim ∧ typeId sim = ty ∧
    (s.reg.simulators[i]? = some (some sim) ∨ (i, sim) ∈ holders s.stack ∧ s.reg.simulators[i]? = some none)
  /-- every simulator that was added can be found -/
  complete : ∀ (i : ℕ) (sim : S), s.owners[i]? = some sim → s.reg.simulatorsByType (typeId sim) = some i

theorem Held.indexed (hH : s.Held) : s.Indexed ↔ s.Mapped ∧ s.Intact := by
  constructor
  · intro h
    refine ⟨fun ty i => ⟨fun hty => ?_, ?_⟩, fun i hi => ?_⟩
    · obtain ⟨sim, ho, heq, -⟩ := h.sound ty i hty
      exact ⟨sim, ho, heq⟩
    · rintro ⟨sim, ho, rfl⟩
      exact h.complete i sim ho
    · -- the slot has an owner, and so the index knows it
      have hlt : i < s.owners.length := by
        rw [← hH.length]
        exact (List.getElem?_eq_some_iff.mp hi).1
      obtain ⟨sim, -, -, hs | ⟨hm, -⟩⟩ := h.sound _ i (h.complete i _ (List.getElem?_eq_getElem hlt))
      · rw [hi] at hs
        cases hs
      · exact ⟨sim, hm⟩
  · rintro ⟨hM, hI⟩
    refine ⟨hH.length, fun ty i hty => ?_, fun i sim ho => (hM _ i).mpr ⟨sim, ho, rfl⟩⟩
    obtain ⟨sim, ho, heq⟩ := (hM ty i).mp hty
    refine ⟨sim, ho, heq, ?_⟩
    by_cases hm : (i, sim) ∈ holders s.stack
    · exact Or.inr ⟨hm, (hH.taken i sim hm).1⟩
    · exact Or.inl ((hH.undisturbed.mpr hI).holds i sim ho hm)

/-- `get` answers for a simulator that `with` comes to: it is handed out, unless it is in use. -/
theorem Indexed.get (h : s.Indexed) {ty : SimTy} (hg : (s.reg.get ty).1 = .ok ()) :
    ∃ i sim, s.owners[i]? = some sim ∧ typeId sim = ty ∧
      ((s.reg.withSimulatorOption ty).1 = .ok (some (i, sim)) ∨
        (i, sim) ∈ holders s.stack ∧ (s.reg.withSimulatorOption ty).1 = .error .simulatorBorrowed) := by
  unfold SimRegistry.get at hg
  split_ifs at hg with hty
  obtain ⟨i, hi⟩ := Option.isSome_iff_exists.mp hty
  obtain ⟨sim, ho, heq, hs | ⟨hm, hs⟩⟩ := h.sound ty i hi
  · exact ⟨i, sim, ho, heq, Or.inl (by simp [SimRegistry.withSimulatorOption, hi, hs])⟩
  · exact ⟨i, sim, ho, heq, Or.inr ⟨hm, by simp [SimRegistry.withSimulatorOption, hi, hs]⟩⟩

/-- A failed `add_simulator` changes nothing, unless the type is registered and the first assertion holds. -/
theorem addSimulator_error (hM : s.Mapped) (hH : s.Held) {sim : S} {p : Panic} {r : SimRegistry S}
    (h : s.reg.addSimulator sim = (.error p, r)) : r = s.reg ↔ s.KeepsIndex (.user (.addSimulator sim)) := by
  have hspares : s.Spares (.user (.addSimulator sim)) := fun _ _ _ hl => nomatch hl
  simp only [SimRegistry.addSimulator] at h
  split_ifs at h with hg hn
  · cases h
  · cases h
    refine iff_of_false (fun heq => ?_) fun hk => hn (by rw [hk.1.1 sim rfl hg.1 hg.2]; rfl)
    -- no type is mapped to the end of the vector
    have hty := congrFun (congrArg SimRegistry.simulatorsByType heq) (typeId sim)
    simp only [Function.update_self] at hty
    obtain ⟨sim', ho, -⟩ := (hM _ _).mp hty.symm
    have hlt := (List.getElem?_eq_some_iff.mp ho).1
    rw [hH.length] at hlt
    omega
  · cases h
    refine iff_of_true rfl ⟨⟨fun sim' hl h1 hf => ?_, fun hl => nomatch hl⟩, hspares⟩
    exact absurd ⟨h1, hf⟩ hg

/-- **The index is valid until a type is added again, the teardown pops, or a panic leaves a callback.** -/
theorem index_valid {ls : List (SimLabel S)} (hrun : Machine.run step install ls = .ok s)
    (hls : Machine.Along step KeepsIndex install ls) :
    s.Indexed ∧
      (∀ ty, (s.reg.get ty).1 = .ok () → ∃ i sim, s.owners[i]? = some sim ∧ typeId sim = ty ∧
        ((s.reg.withSimulatorOption ty).1 = .ok (some (i, sim)) ∨
          (i, sim) ∈ holders s.stack ∧ (s.reg.withSimulatorOption ty).1 = .error .simulatorBorrowed)) ∧
      (∀ sim p r, s.reg.addSimulator sim = (.error p, r) →
        (r = s.reg ↔ s.KeepsIndex (.user (.addSimulator sim)))) ∧
      ∀ l s', s.step l = .ok s' → (s'.Indexed ↔ s.KeepsIndex l) := by
  obtain ⟨hH, hM, hI⟩ : s.Held ∧ s.Mapped ∧ s.Intact := by
    refine hls.inv (I := fun s => s.Held ∧ s.Mapped ∧ s.Intact)
      (fun m l m' hm hl hst => ?_) hrun ⟨install_held, ?_, ?_⟩
    · obtain ⟨hH, hM, hI⟩ := hm
      have hn := step_next hH hst
      exact ⟨hn.held hH, hn.mapped hH hM hl.1, hn.intact hI hl.2⟩
    · intro ty i
      simp [install, SimRegistry.new]
    · intro i hi
      simp [install, SimRegistry.new] at hi
  have hX := hH.indexed.mpr ⟨hM, hI⟩
  refine ⟨hX, fun ty => hX.get, fun sim p r => addSimulator_error hM hH, fun l s' hst => ?_⟩
  have hn := step_next hH hst
  rw [(hn.held hH).indexed]
  refine ⟨fun ⟨hM', hI'⟩ => ⟨?_, fun i sim rest hl hk => ?_⟩, fun hk => ⟨hn.mapped hH hM hk.1, hn.intact hI hk.2⟩⟩
  · by_contra hk
    exact not_mapped hH hM hst hk hM'
  · subst hl
    exact not_intact_of_unwound hH hk hst hI'

/-- Two simulators, of which one is in use. -/
def addRun : List (SimLabel SimTy) := [.user (.addSimulator 7), .user (.addSimulator 8), .user (.withSimulator 8)]

theorem index_valid_add : ∃ s : SimThread SimTy, Machine.run step install addRun = .ok s ∧
    (s.reg.simulatorsByType 7, s.reg.simulatorsByType 8) = (some 0, some 1) ∧ s.Indexed := by
  obtain ⟨s, hs, hq⟩ : ∃ s : SimThread SimTy, Machine.run step install addRun = .ok s ∧
      (s.reg.simulatorsByType 7, s.reg.simulatorsByType 8) = (some 0, some 1) := Machine.exists_of_run rfl
  have hspares : ∀ {s : SimThread SimTy} {op : SimOp SimTy}, s.Spares (.user op) := fun _ _ _ h => nomatch h
  have hkeeps : Machine.Along step KeepsIndex install addRun := by
    refine ⟨⟨⟨fun _ _ _ _ => rfl, fun h => nomatch h⟩, hspares⟩, fun m hm => ?_⟩
    cases hm
    refine ⟨⟨⟨fun sim h _ _ => ?_, fun h => nomatch h⟩, hspares⟩, fun m hm => ?_⟩
    · cases h
      rfl
    cases hm
    exact ⟨⟨⟨fun _ h => (nomatch h), fun h => nomatch h⟩, hspares⟩, fun _ _ => trivial⟩
  exact ⟨s, hs, hq, (index_valid hs hkeeps).1⟩

/-- A type is added twice, and the second time is caught. -/
def twiceRun : List (SimLabel SimTy) :=
  [.user (.addSimulator 7), .user .catchUnwind, .user (.addSimulator 7), .unwind]

/-- The teardown has popped the simulator, whose destructor runs. -/
def poppedRun : List (SimLabel SimTy) := [.user (.addSimulator 7), .user .done, .user .done, .run]

/-- `get` answers, and `with` indexes out of bounds, or finds a slot that nobody will fill. -/
theorem index_broken :
    (∃ s : SimThread SimTy, Machine.run step install twiceRun = .ok s ∧ s.stack = [] ∧
      s.reg.simulators = [some 7] ∧ s.reg.simulatorsByType 7 = some 1 ∧ (s.reg.get 7).1 = .ok () ∧
      (s.reg.withSimulatorOption 7).1 = .error .simulatorIndex ∧ ¬ s.Indexed) ∧
    (∃ s : SimThread SimTy, Machine.run step install poppedRun = .ok s ∧ s.stack = [.dropSim] ∧
      s.reg.simulators = [] ∧ s.reg.simulatorsByType 7 = some 0 ∧ (s.reg.get 7).1 = .ok () ∧
      (s.reg.withSimulatorOption 7).1 = .error .simulatorIndex ∧ ¬ s.Indexed) ∧
    ∃ s : SimThread SimTy, Machine.run step install thrownRun = .ok s ∧ s.stack = [] ∧
      s.reg.simulators = [none] ∧ s.reg.simulatorsByType 7 = some 0 ∧ (s.reg.get 7).1 = .ok () ∧
      (s.reg.withSimulatorOption 7).1 = .error .simulatorBorrowed ∧ ¬ s.Indexed := by
  refine ⟨?_, ?_, ?_⟩
  · obtain ⟨s, hs, hq⟩ : ∃ s : SimThread SimTy, Machine.run step install twiceRun = .ok s ∧
        (s.stack, s.reg.simulators, s.reg.simulatorsByType 7, s.owners) = ([], [some 7], some 1, [7]) :=
      Machine.exists_of_run rfl
    simp only [Prod.mk.injEq] at hq
    obtain ⟨hk, hsl, hty, ho⟩ := hq
    refine ⟨s, hs, hk, hsl, hty, by simp [SimRegistry.get, hty],
      by simp [SimRegistry.withSimulatorOption, hty, hsl], fun h => ?_⟩
    obtain ⟨sim, hsim, -⟩ := h.sound 7 1 hty
    simp [ho] at hsim
  · obtain ⟨s, hs, hq⟩ : ∃ s : SimThread SimTy, Machine.run step install poppedRun = .ok s ∧
        (s.stack, s.reg.simulators, s.reg.simulatorsByType 7, s.owners) = ([.dropSim], [], some 0, []) :=
      Machine.exists_of_run rfl
    simp only [Prod.mk.injEq] at hq
    obtain ⟨hk, hsl, hty, ho⟩ := hq
    refine ⟨s, hs, hk, hsl, hty, by simp [SimRegistry.get, hty],
      by simp [SimRegistry.withSimulatorOption, hty, hsl], fun h => ?_⟩
    obtain ⟨sim, hsim, -⟩ := h.sound 7 0 hty
    simp [ho] at hsim
  · obtain ⟨s, hs, hq⟩ : ∃ s : SimThread SimTy, Machine.run step install thrownRun = .ok s ∧
        (s.stack, s.reg.simulators, s.reg.simulatorsByType 7) = ([], [none], some 0) := Machine.exists_of_run rfl
    simp only [Prod.mk.injEq] at hq
    obtain ⟨hk, hsl, hty⟩ := hq
    refine ⟨s, hs, hk, hsl, hty, by simp [SimRegistry.get, hty],
      by simp [SimRegistry.withSimulatorOption, hty, hsl], fun h => ?_⟩
    obtain ⟨sim, -, -, hs | ⟨hm, -⟩⟩ := h.sound 7 0 hty
    · simp [hsl] at hs
    · simp [hk] at hm

end Index

end SimThread

/-! ## The registry in the simulation -/

namespace SimCx

variable {V Q : Type} {s : SimCx V Q}

/-- The registry of a simulation. -/
def registry (s : SimCx V Q) : SimRegistry SimTy :=
  ⟨s.ex.nodes.length, s.ex.finalStopped, s.simulators, s.simulatorsByType⟩

def setRegistry (s : SimCx V Q) (r : SimRegistry SimTy) : SimCx V Q :=
  { s with simulators := r.simulators, simulatorsByType := r.simulatorsByType }

/-- What a function of the registry answers, as a step of the simulation, which a panic ends. -/
def answer {A : Type} (s : SimCx V Q) (x : Except Panic A × SimRegistry SimTy) : Except Halt (A × SimCx V Q) :=
  call x.1 >>= fun a => pure (a, s.setRegistry x.2)

section Answers

variable {i : ℕ} {sim ty : SimTy} {rest : List (Frame V)}

theorem addSimulator_registry (hc : s.cell = .free) :
    s.addSimulator ty = (s.answer (s.registry.addSimulator ty)).map Prod.snd := by
  unfold addSimulator borrow SimRegistry.addSimulator
  rw [hc]
  by_cases hg : s.ex.nodes.length = 1 ∧ s.ex.finalStopped = false
  · cases hty : s.simulatorsByType ty with
    | some i =>
      simp [registry, answer, call, hg, hty, Simulator.typeId, bind, Except.bind, Except.mapError, Except.map]
    | none =>
      simp [registry, answer, call, hc, hg, hty, Simulator.typeId, bind, Except.bind, Except.mapError,
        Except.map, pure, Except.pure, setRegistry]
  · simp [registry, answer, call, hg, bind, Except.bind, Except.mapError, Except.map]

theorem withSimulator_registry (hc : s.cell = .free) :
    s.withSimulator ty = (s.answer (s.registry.get ty) >>= fun _ =>
      s.answer (s.registry.withSimulatorOption ty) >>= fun
        | (some (i, sim), s') => pure { s' with stack := .withSim i sim :: s.stack }
        | (none, _) => .error .disabled) := by
  unfold withSimulator borrow SimRegistry.get SimRegistry.withSimulatorOption
  rw [hc]
  cases hty : s.simulatorsByType ty with
  | none => simp [registry, answer, call, hty, bind, Except.bind, Except.mapError]
  | some i =>
    rcases hs : s.simulators[i]? with _ | _ | sim <;>
      simp [registry, answer, call, hc, hty, hs, bind, Except.bind, Except.mapError, pure, Except.pure,
        setRegistry]

theorem putBack_registry (hc : s.cell = .free) :
    s.putBack i sim rest =
      (s.answer (s.registry.replace i sim)).map fun x => { x.2 with stack := rest } := by
  unfold putBack borrow SimRegistry.replace
  rw [hc]
  rcases hs : s.simulators[i]? with _ | _ | sim' <;>
    simp [registry, answer, call, hc, hs, bind, Except.bind, Except.mapError, Except.map, pure, Except.pure,
      setRegistry]

theorem callNext_registry (hc : s.cell = .free) {cb : Callback} {len : ℕ} {idx : List ℕ} {caller : NodeId} :
    s.callNext cb len i idx caller rest = (s.answer (s.registry.swap i none) >>= fun
      | (some sim, s') => pure { s' with
          ex := s.ex.note (.callback sim cb s.currentNode)
          stack := .callback i sim :: .sims cb len idx caller :: rest }
      | (none, _) => .error (.panic .simulatorBorrowed)) := by
  unfold callNext borrow SimRegistry.swap
  rw [hc]
  rcases hs : s.simulators[i]? with _ | _ | sim' <;>
    simp [registry, answer, call, hc, hs, bind, Except.bind, Except.mapError, pure, Except.pure, setRegistry]

end Answers

end SimCx

end Refault
