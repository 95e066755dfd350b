import Refault.Callbacks
import Refault.Unwind

/-!
# Refault.PerNode — one value for each node

A `PerNode` is a simulator with a vector of its own, which is meant to have an entry for each node:
`PerNode::new` makes the first, `create_node` makes one more, `stop_node` and `start_node` call the
`NodeSimulator` of the current node, and `with_node` indexes the vector.  `PerNodeCx` is the simulation with
these vectors; `makers` says which simulators are `PerNode`s and what their constructor closures answer, call
after call.

`accesses` and `calls` are not in the program: they record the changes made through an entry, and the
callbacks of `NodeSimulator`s, with the depth of the frame of `for_all_simulators` that has made them.
-/

namespace Refault

structure PerNode (E : Type) where
  simulators : List E
  /-- how often the constructor closure has returned -/
  made : ℕ
  /-- the callback that runs, and `NodeId::current()` as it has read it -/
  running : Option (Callback × NodeId)
  accesses : List (NodeId × (E → E))

namespace PerNode

variable {E : Type}

/-- `PerNode::new`. -/
def new (make : ℕ → E) : PerNode E := ⟨[make 0], 1, none, []⟩

/-- A change through `&mut self.simulators[node.to_index()]`; `none` is an index out of bounds. -/
def index (p : PerNode E) (node : NodeId) (f : E → E) : Option (PerNode E) :=
  if node < p.simulators.length then
    some { p with simulators := p.simulators.modify node f, accesses := p.accesses ++ [(node, f)] }
  else none

/-- A callback returns; that of `create_node` has pushed what the closure has made. -/
def returned (p : PerNode E) (make : ℕ → E) : PerNode E :=
  match p.running with
  | some (.create, _) =>
    { p with simulators := p.simulators ++ [make p.made], made := p.made + 1, running := none }
  | _ => { p with running := none }

end PerNode

/-- A callback of the `NodeSimulator` of `node`. -/
structure NodeCall where
  depth : ℕ
  ty : SimTy
  cb : Callback
  node : NodeId
deriving DecidableEq

inductive PerNodeHalt
  | halt (h : Halt)
  /-- index into `PerNode::simulators` out of bounds -/
  | perNodeIndex (ty : SimTy) (node : NodeId)

structure PerNodeCx (E V Q : Type) where
  cx : SimCx V Q
  perNode : SimTy → PerNode E
  calls : List NodeCall

inductive PerNodeLabel (E V : Type)
  | cx (l : Label V)
  /-- in a closure under `SimulatorHandle::with`: `with_node` indexes, and `f` changes the entry -/
  | withNode (node : NodeId) (f : E → E)
  /-- in a callback of a `NodeSimulator`: a change through its `&mut self` -/
  | change (f : E → E)

namespace PerNodeCx

variable {E V Q : Type} [KeyedQueue Q Loc Instant]

def install (b : SimBuilder) : PerNodeCx E V Q := ⟨SimCx.install b, fun _ => ⟨[], 0, none, []⟩, []⟩

def set (s : PerNodeCx E V Q) (ty : SimTy) (p : PerNode E) : PerNodeCx E V Q :=
  { s with perNode := Function.update s.perNode ty p }

section Step

variable (makers : SimTy → Option (ℕ → E))

/-- What a step of the simulation means for the vectors: a `PerNode` is added, a callback of a `PerNode`
begins, with the index that `stop_node` and `start_node` make of `NodeId::current()`, or it returns. -/
def follow (s : PerNodeCx E V Q) (l : Label V) : Except PerNodeHalt (PerNodeCx E V Q) :=
  match l, s.cx.stack with
  | .user (.addSimulator ty), _ =>
    match makers ty with
    | some make => .ok (s.set ty (.new make))
    | none => .ok s
  | .user (.done _), .callback _ ty :: _ =>
    match makers ty with
    | some make => .ok (s.set ty ((s.perNode ty).returned make))
    | none => .ok s
  | .run _, .sims cb _ (i :: _) _ :: rest =>
    match s.cx.simulators[i]? with
    | some (some ty) =>
      match makers ty, cb with
      | some _, .create => .ok (s.set ty { s.perNode ty with running := some (.create, s.cx.currentNode) })
      | some _, cb =>
        if s.cx.currentNode < (s.perNode ty).simulators.length then
          .ok { s.set ty { s.perNode ty with running := some (cb, s.cx.currentNode) } with
            calls := s.calls ++ [⟨rest.length + 1, ty, cb, s.cx.currentNode⟩] }
        else .error (.perNodeIndex ty s.cx.currentNode)
      | none, _ => .ok s
    | _ => .ok s
  | _, _ => .ok s

def step (s : PerNodeCx E V Q) : PerNodeLabel E V → Except PerNodeHalt (PerNodeCx E V Q)
  | .cx l => do
    let cx ← (s.cx.step l).mapError .halt
    let s' ← s.follow makers l
    pure { s' with cx := cx }
  | .withNode node f =>
    match s.cx.stack with
    | .withSim _ ty :: _ =>
      match makers ty, (s.perNode ty).index node f with
      | some _, some p => .ok (s.set ty p)
      | some _, none => .error (.perNodeIndex ty node)
      | none, _ => .error (.halt .disabled)
    | _ => .error (.halt .disabled)
  | .change f =>
    match s.cx.stack with
    | .callback _ ty :: _ =>
      match makers ty, (s.perNode ty).running with
      | some _, some (.create, _) => .error (.halt .disabled)
      | some _, some (_, node) =>
        match (s.perNode ty).index node f with
        | some p => .ok (s.set ty p)
        | none => .error (.perNodeIndex ty node)
      | _, _ => .error (.halt .disabled)
    | _ => .error (.halt .disabled)

def Reachable (b : SimBuilder) (s : PerNodeCx E V Q) : Prop := Machine.Steps (step makers) (install b) s

end Step

end PerNodeCx

/-! ## Rounds of calls -/

section Owes

variable {V : Type}

/-- How often a creation in progress has still to call the simulator in slot `i`. -/
def Round.owes (i : ℕ) (r : Round) : ℕ :=
  match r.phase with
  | .calling .create idx => idx.count i
  | _ => 0

def owed (i : ℕ) (rs : List Round) : ℕ := (rs.map (Round.owes i)).sum

@[simp] theorem owed_nil (i : ℕ) : owed i [] = 0 := rfl

@[simp] theorem owed_cons (i : ℕ) (r : Round) (rs : List Round) : owed i (r :: rs) = r.owes i + owed i rs := rfl

@[simp] theorem owes_aborting (i : ℕ) (n : NodeId) (out : List ℕ) : Round.owes i ⟨n, .aborting, out⟩ = 0 := rfl

@[simp] theorem owes_create (i : ℕ) (n : NodeId) (idx out : List ℕ) :
    Round.owes i ⟨n, .calling .create idx, out⟩ = idx.count i := rfl

theorem owes_other {cb : Callback} (hcb : cb ≠ .create) (i : ℕ) (n : NodeId) (idx out : List ℕ) :
    Round.owes i ⟨n, .calling cb idx, out⟩ = 0 := by
  cases cb with
  | create => exact absurd rfl hcb
  | stop | start => rfl

/-- Without a creation nothing is owed. -/
theorem owed_eq_zero {i : ℕ} {rs : List Round} (h : ∀ r ∈ rs, ∀ idx, r.phase ≠ .calling .create idx) :
    owed i rs = 0 := by
  induction rs with
  | nil => rfl
  | cons r rs ih =>
    have hr : r.owes i = 0 := by
      unfold Round.owes
      split
      · next idx hp => exact absurd hp (h r List.mem_cons_self idx)
      · rfl
    rw [owed_cons, hr, ih fun r' hr' => h r' (List.mem_cons_of_mem _ hr')]

/-- A round of calls is on top of the stack, or some simulator has been taken above it. -/
theorem rounds_head {stack : List (Frame V)} (hch : stack.IsChain Above) {cur n : NodeId} {cb : Callback}
    {idx t : List ℕ} {o : List Round} (h : rounds cur stack = ⟨n, .calling cb idx, t⟩ :: o) :
    (∃ len c rest, stack = .sims cb len idx c :: rest ∧ cur = n ∧ o = rounds c rest) ∨
    t.length < (taken stack).length := by
  induction stack generalizing cur with
  | nil => cases h
  | cons f rest ih =>
    cases hp : f.phase with
    | some p =>
      rw [rounds_cons, hp] at h
      obtain ⟨h1, h2⟩ := List.cons.inj h
      cases h1
      cases f with
      | stopNode ids c => cases hp
      | sims cb' len idx' c =>
        cases hp
        exact Or.inl ⟨len, c, rest, rfl, rfl, h2.symm⟩
      | _ => cases hp
    | none =>
      rw [rounds_cons, hp] at h
      have hlt : t.length < (taken rest).length ∨ (∃ i, f.slot = some i) ∧ t = taken rest := by
        rcases ih hch.tail h with ⟨len, c, rest', rfl, -, -⟩ | hlt
        · obtain ⟨i, hi⟩ := Option.isSome_iff_exists.mp ((List.isChain_cons_cons.mp hch).1 ⟨_, _, _, _, rfl⟩)
          rw [rounds_cons] at h
          obtain ⟨h1, -⟩ := List.cons.inj h
          refine Or.inr ⟨⟨i, hi⟩, ?_⟩
          have ht := congrArg Round.out h1
          simpa [taken_cons, Frame.slot] using ht.symm
        · exact Or.inl hlt
      rw [taken_cons]
      right
      rcases hlt with hlt | ⟨⟨i, hi⟩, rfl⟩
      · rw [List.length_append]
        omega
      · simp [hi]

end Owes

namespace SimCx

variable {V Q : Type} [KeyedQueue Q Loc Instant] {b : SimBuilder} {s s' : SimCx V Q} {l : Label V}

omit [KeyedQueue Q Loc Instant] in
/-- The first round, when no simulator has been taken since it began, is on top of the stack. -/
theorem Out.top_round (hO : s.Out) {n : NodeId} {cb : Callback} {idx : List ℕ} {o : List Round}
    (h : s.rounds = ⟨n, .calling cb idx, taken s.stack⟩ :: o) :
    ∃ len c rest, s.stack = .sims cb len idx c :: rest ∧ s.currentNode = n ∧ o = Refault.rounds c rest := by
  rcases rounds_head hO.chain h with h | h
  · exact h
  · exact absurd h (lt_irrefl _)

/-- `for_all_simulators` calls its next simulator. -/
theorem step_sims {cb : Callback} {len i : ℕ} {idx : List ℕ} {c : NodeId} {rest : List (Frame V)}
    (hk : s.stack = .sims cb len (i :: idx) c :: rest) (h : s.step l = .ok s') :
    (∃ order, l = .run order) ∧ ∃ sim, s.simulators[i]? = some (some sim) ∧ s' = { s with
      simulators := s.simulators.set i none
      ex := s.ex.note (.callback sim cb s.currentNode)
      stack := .callback i sim :: .sims cb len idx c :: rest } := by
  cases l with
  | user op =>
    simp only [step, hk] at h
    cases h
  | run order =>
    refine ⟨⟨order, rfl⟩, ?_⟩
    simp only [step, runtime, hk] at h
    obtain ⟨-, h⟩ := borrow_bind.mp h
    split at h
    · cases h
    · cases h
    · next sim hs =>
      cases h
      exact ⟨sim, hs, rfl⟩

/-- `for_all_simulators` returns. -/
theorem step_sims_nil {cb : Callback} {len : ℕ} {c : NodeId} {rest : List (Frame V)}
    (hk : s.stack = .sims cb len [] c :: rest) (h : s.step l = .ok s') :
    (∃ order, l = .run order) ∧ s.simulators.length = len ∧ s' = { s with currentNode := c, stack := rest } := by
  cases l with
  | user op =>
    simp only [step, hk] at h
    cases h
  | run order =>
    refine ⟨⟨order, rfl⟩, ?_⟩
    simp only [step, runtime, hk] at h
    obtain ⟨-, h⟩ := borrow_bind.mp h
    split_ifs at h with hlen
    cases h
    exact ⟨hlen, rfl⟩

/-- A callback returns. -/
theorem step_callback_done {i : ℕ} {sim : SimTy} {rest : List (Frame V)} (hk : s.stack = .callback i sim :: rest)
    {r : Option V} (h : s.step (.user (.done r)) = .ok s') :
    s.simulators[i]? = some none ∧ s' = { s with simulators := s.simulators.set i (some sim), stack := rest } := by
  simp only [step, hk, userOp, done] at h
  obtain ⟨-, hs, h⟩ := putBack_ok h
  exact ⟨hs, h⟩

/-- A callback stays on the stack until it is on top and returns. -/
theorem Next.callback_stays (h : Next s l s') (hst : s.step l = .ok s') {i : ℕ} {sim : SimTy}
    (hm : .callback i sim ∈ s.stack) (hd : ∀ r rest, l = .user (.done r) → s.stack ≠ .callback i sim :: rest) :
    .callback i sim ∈ s'.stack := by
  cases hk : s.stack with
  | nil => rw [hk] at hm; cases hm
  | cons f rest =>
    rw [hk] at hm
    rcases List.mem_cons.mp hm with rfl | hm
    · -- on top there is user code, which makes a call
      cases l with
      | user op =>
        obtain ⟨gs, hgs, -⟩ := h.pushes (fun r hr => hd r rest hr hk) (by simp)
        rw [hgs, hk]
        simp
      | run order =>
        simp only [step, runtime, hk] at hst
        cases hst
    · rcases h.top hk with ⟨h1, -⟩ | ⟨gs, g, h1, -, -⟩
      · rw [h1]
        exact hm
      · rw [h1]
        simp [hm]

/-- Only `add_simulator` changes the index. -/
theorem Next.byType_eq (h : Next s l s') {ty : SimTy} (hl : l ≠ .user (.addSimulator ty)) :
    s'.simulatorsByType ty = s.simulatorsByType ty := by
  cases h with
  | addSimulator ty' hu hc hn hf hb =>
    exact Function.update_of_ne (by rintro rfl; exact hl rfl) ..
  | _ => rfl

end SimCx

/-! ## The entries -/

namespace PerNode

variable {E : Type} {make : ℕ → E} {p p' : PerNode E}

/-- What the accesses have made of the value for `k`. -/
def history (v : E) (accesses : List (NodeId × (E → E))) (k : NodeId) : E :=
  (accesses.filter fun a => a.1 = k).foldl (fun e a => a.2 e) v

/-- Entry `k` is what the call `k` of the closure has made, changed by the accesses to `k`. -/
structure Good (make : ℕ → E) (p : PerNode E) : Prop where
  made : p.made = p.simulators.length
  value : ∀ k < p.simulators.length, p.simulators[k]? = some (history (make k) p.accesses k)
  accessed : ∀ a ∈ p.accesses, a.1 < p.simulators.length

/-- The callback that runs is that of `create_node`. -/
def making (p : PerNode E) : ℕ :=
  match p.running with
  | some (.create, _) => 1
  | _ => 0

theorem history_append (v : E) (as : List (NodeId × (E → E))) (n k : NodeId) (f : E → E) :
    history v (as ++ [(n, f)]) k = if n = k then f (history v as k) else history v as k := by
  unfold history
  rw [List.filter_append, List.foldl_append]
  by_cases h : n = k <;> simp [h]

theorem history_of_not_mem {v : E} {as : List (NodeId × (E → E))} {k : NodeId} (h : ∀ a ∈ as, a.1 < k) :
    history v as k = v := by
  unfold history
  rw [List.filter_eq_nil_iff.mpr fun a ha => by simp [(h a ha).ne]]
  rfl

theorem good_new (make : ℕ → E) : (new make).Good make where
  made := rfl
  value k hk := by
    obtain rfl : k = 0 := by simpa [new] using hk
    rfl
  accessed a ha := absurd ha List.not_mem_nil

theorem index_eq {n : NodeId} {f : E → E} (h : p.index n f = some p') : n < p.simulators.length ∧
    p' = { p with simulators := p.simulators.modify n f, accesses := p.accesses ++ [(n, f)] } := by
  unfold index at h
  split_ifs at h with hn
  cases h
  exact ⟨hn, rfl⟩

theorem Good.index (h : p.Good make) {n : NodeId} {f : E → E} (hi : p.index n f = some p') : p'.Good make := by
  obtain ⟨hn, rfl⟩ := index_eq hi
  refine ⟨by simp [h.made], fun k hk => ?_, fun a ha => ?_⟩
  · simp only [List.length_modify] at hk
    rw [List.getElem?_modify, h.value k hk, history_append]
    by_cases hnk : n = k <;> simp [hnk]
  · rw [List.length_modify]
    rcases List.mem_append.mp ha with ha | ha
    · exact h.accessed a ha
    · rw [List.mem_singleton.mp ha]
      exact hn

theorem Good.returned (h : p.Good make) : (p.returned make).Good make := by
  unfold PerNode.returned
  split
  · refine ⟨by simp [h.made], fun k hk => ?_, fun a ha => ?_⟩
    · simp only [List.length_append, List.length_singleton] at hk
      by_cases hlt : k < p.simulators.length
      · rw [List.getElem?_append_left hlt]
        exact h.value k hlt
      · -- the new entry
        obtain rfl : k = p.simulators.length := by omega
        rw [List.getElem?_append_right le_rfl, history_of_not_mem h.accessed, ← h.made]
        simp [h.made]
    · rw [List.length_append]
      exact Nat.lt_add_right _ (h.accessed a ha)
  · exact ⟨h.made, h.value, h.accessed⟩

theorem returned_length (p : PerNode E) (make : ℕ → E) :
    (p.returned make).simulators.length = p.simulators.length + p.making ∧
    (p.returned make).running = none := by
  unfold PerNode.returned making
  split <;> simp

end PerNode

namespace PerNodeCx

variable {E V Q : Type}

/-- `create_node` is running for `n`. -/
def Creating (s : SimCx V Q) (n : NodeId) : Prop :=
  ∃ r ∈ s.rounds, r.node = n ∧ ∃ idx, r.phase = .calling .create idx

/-- How the entries of the `PerNode` in slot `i` agree with the nodes. -/
structure Counts (p : PerNode E) (ty : SimTy) (i : ℕ) (s : SimCx V Q) : Prop where
  count : p.simulators.length + owed i s.rounds + p.making = s.ex.nodes.length
  created : ∀ n, p.simulators.length ≤ n → n < s.ex.nodes.length → Creating s n
  running : p.running ≠ none → .callback i ty ∈ s.stack

variable [KeyedQueue Q Loc Instant] {b : SimBuilder} {p : PerNode E} {ty : SimTy} {i : ℕ} {s s' : SimCx V Q}
  {l : Label V}

omit [KeyedQueue Q Loc Instant] in
/-- While it is called, its slot is empty. -/
theorem Counts.idle (hC : Counts p ty i s) (hO : s.Out) {sim : SimTy} (hs : s.simulators[i]? = some (some sim)) :
    p.running = none := by
  by_contra h
  have hm : i ∈ taken s.stack := List.mem_filterMap.mpr ⟨_, hC.running h, rfl⟩
  rw [hO.empty i hm] at hs
  cases hs

/-- A step that neither calls nor returns. -/
theorem Counts.turn (hC : Counts p ty i s) (hr : SimCx.Reachable b s) (hst : s.step l = .ok s')
    (hty : s.simulatorsByType ty = some i)
    (hno : ∀ cb len j idx c rest, s.stack ≠ .sims cb len (j :: idx) c :: rest)
    (hd : ∀ r rest, l = .user (.done r) → s.stack ≠ .callback i ty :: rest) : Counts p ty i s' := by
  have hB := hr.base
  have hO := hr.out
  have hnext := SimCx.step_next hB hst
  have hrunning : p.running ≠ none → .callback i ty ∈ s'.stack :=
    fun h => hnext.callback_stays hst (hC.running h) hd
  have hmk : ∀ {rs : List Round}, (∀ r ∈ s.rounds, ∀ idx, r.phase = .calling .create idx → r ∈ rs) →
      s'.rounds = rs → ∀ n, Creating s n → Creating s' n := by
    rintro rs h rfl n ⟨r, hr, hn, idx, hp⟩
    exact ⟨r, h r hr idx hp, hn, idx, hp⟩
  cases hnext.turn hB with
  | calm _ h hr' =>
    exact ⟨by rw [hr', h.length]; exact hC.count, fun n h1 h2 =>
      hmk (fun _ h _ _ => h) hr' n (hC.created n h1 (h.length ▸ h2)), hrunning⟩
  | stop _ n level hrun hl he hu hr' =>
    refine ⟨?_, fun n h1 h2 => hmk (fun _ h _ _ => List.mem_cons_of_mem _ h) hr' n (hC.created n h1 ?_), hrunning⟩
    · rw [hr', he, owed_cons, owes_aborting, zero_add]
      simpa [Exec.setRunLevel] using hC.count
    · simpa [he, Exec.setRunLevel] using h2
  | start n hrun he hu hr' =>
    refine ⟨?_, fun n h1 h2 => hmk (fun _ h _ _ => List.mem_cons_of_mem _ h) hr' n (hC.created n h1 ?_), hrunning⟩
    · rw [hr', he, owed_cons, owes_other (by decide), zero_add]
      simpa [Exec.setRunLevel] using hC.count
    · simpa [he, Exec.setRunLevel] using h2
  | create _ hf he hu hr' =>
    have hlt : i < s.simulators.length := by
      refine (hr.slots.bound ty i hty).resolve_right fun hG => ?_
      rw [hG.stopped] at hf
      cases hf
    have hcount : (List.range s.simulators.length).count i = 1 :=
      List.count_eq_one_of_mem List.nodup_range (List.mem_range.mpr hlt)
    refine ⟨?_, fun n h1 h2 => ?_, hrunning⟩
    · have := hC.count
      rw [hr', he, owed_cons, owes_create, hcount]
      simp only [List.length_append, List.length_singleton]
      omega
    · by_cases hn : n < s.ex.nodes.length
      · exact hmk (fun _ h _ _ => List.mem_cons_of_mem _ h) hr' n (hC.created n h1 hn)
      · simp only [he, List.length_append, List.length_singleton] at h2
        obtain rfl : n = s.ex.nodes.length := by omega
        exact ⟨_, hr' ▸ List.mem_cons_self, rfl, _, rfl⟩
  | sims _ n o he hr₀ hr' =>
    refine ⟨?_, fun n h1 h2 => ?_, hrunning⟩
    · have := hC.count
      rw [hr₀, owed_cons, owes_aborting] at this
      rw [hr', he, owed_cons, owes_other (by decide)]
      exact this
    · obtain ⟨r, hr, hn, idx, hp⟩ := hC.created n h1 (he ▸ h2)
      rw [hr₀] at hr
      rcases List.mem_cons.mp hr with rfl | hr
      · cases hp
      · exact ⟨r, hr' ▸ List.mem_cons_of_mem _ hr, hn, idx, hp⟩
  | call _ n cb j idx sim o hs he hr₀ hr' =>
    obtain ⟨len, c, rest, hk, -, -⟩ := hO.top_round hr₀
    exact absurd hk (hno cb len j idx c rest)
  | finish _ n cb o he hr₀ hr' =>
    obtain ⟨len, c, rest, hk, -, rfl⟩ := hO.top_round hr₀
    have hnil : taken s.stack = [] := by
      refine List.eq_nil_iff_forall_not_mem.mpr fun j hj => ?_
      exact absurd (hr.waits _ (hr₀ ▸ List.mem_cons_self) cb [] rfl j hj) List.not_mem_nil
    -- no simulator is out, so no other round makes calls
    have hother : ∀ r ∈ Refault.rounds c rest, ∀ idx, r.phase ≠ .calling .create idx := by
      intro r hm idx hp
      obtain ⟨-, -, rfl⟩ := SimCx.step_sims_nil hk hst
      have htop : ∀ cb len idx c rest', rest ≠ .sims cb len idx c :: rest' := by
        rintro cb' len' idx' c' rest' rfl
        have hch := hO.chain
        rw [hk] at hch
        have hslot := (List.isChain_cons_cons.mp hch).1 ⟨_, _, _, _, rfl⟩
        cases hslot
      refine (hr.tail hst).out.calling htop hm hp ?_
      rw [hk] at hnil
      simpa [Frame.slot] using hnil
    have hmaking : p.making = 0 := by
      have hnone : p.running = none := by
        by_contra h
        have hm : i ∈ taken s.stack := List.mem_filterMap.mpr ⟨_, hC.running h, rfl⟩
        rw [hnil] at hm
        cases hm
      simp [PerNode.making, hnone]
    have hzero : owed i (Refault.rounds c rest) = 0 := owed_eq_zero hother
    have hlen : p.simulators.length = s.ex.nodes.length := by
      have := hC.count
      rw [hr₀, owed_cons, hzero, hmaking] at this
      cases cb with
      | create => simpa using this
      | stop | start => simpa [Round.owes] using this
    refine ⟨?_, fun n h1 h2 => ?_, hrunning⟩
    · rw [hr', he, hzero, hmaking]
      exact hlen
    · rw [he] at h2
      omega

/-- `for_all_simulators` calls it. -/
theorem Counts.call (hC : Counts p ty i s) (hO : s.Out) {cb : Callback} {len : ℕ} {idx : List ℕ} {c : NodeId}
    {rest : List (Frame V)} (hk : s.stack = .sims cb len (i :: idx) c :: rest)
    (hs : s.simulators[i]? = some (some ty)) (h : s.step l = .ok s') :
    Counts { p with running := some (cb, s.currentNode) } ty i s' := by
  have hidle := hC.idle hO hs
  have hmaking : p.making = 0 := by simp [PerNode.making, hidle]
  obtain ⟨-, sim, hs', rfl⟩ := SimCx.step_sims hk h
  obtain rfl : ty = sim := by
    rw [hs] at hs'
    cases hs'
    rfl
  have hrounds : s.rounds = ⟨s.currentNode, .calling cb (i :: idx), taken rest⟩ :: Refault.rounds c rest := by
    rw [SimCx.rounds, hk]
    rfl
  have hcount := hC.count
  rw [hrounds, owed_cons, hmaking] at hcount
  refine ⟨?_, fun n h1 h2 => ?_, fun _ => List.mem_cons_self⟩
  · change p.simulators.length + (Round.owes i ⟨s.currentNode, .calling cb idx, taken rest⟩ +
      owed i (Refault.rounds c rest)) + _ = s.ex.nodes.length
    cases cb with
    | create =>
      rw [owes_create, List.count_cons_self] at hcount
      simp only [owes_create, PerNode.making]
      omega
    | stop | start =>
      rw [owes_other (by decide)] at hcount
      rw [owes_other (by decide)]
      exact hcount
  · obtain ⟨r, hr, hn, idx', hp⟩ := hC.created n h1 h2
    rw [hrounds] at hr
    rcases List.mem_cons.mp hr with rfl | hr
    · cases hp
      exact ⟨⟨s.currentNode, .calling .create idx, taken rest⟩, List.mem_cons_self, hn, idx, rfl⟩
    · exact ⟨r, List.mem_cons_of_mem _ hr, hn, idx', hp⟩

/-- `for_all_simulators` calls another simulator. -/
theorem Counts.call_other (hC : Counts p ty i s) {cb : Callback} {len j : ℕ} {idx : List ℕ} {c : NodeId}
    {rest : List (Frame V)} (hk : s.stack = .sims cb len (j :: idx) c :: rest) (hj : j ≠ i)
    (h : s.step l = .ok s') : Counts p ty i s' := by
  obtain ⟨-, sim, -, rfl⟩ := SimCx.step_sims hk h
  have hrounds : s.rounds = ⟨s.currentNode, .calling cb (j :: idx), taken rest⟩ :: Refault.rounds c rest := by
    rw [SimCx.rounds, hk]
    rfl
  have hcount := hC.count
  rw [hrounds, owed_cons] at hcount
  refine ⟨?_, fun n h1 h2 => ?_, fun hr => ?_⟩
  · change p.simulators.length + (Round.owes i ⟨s.currentNode, .calling cb idx, taken rest⟩ +
      owed i (Refault.rounds c rest)) + _ = s.ex.nodes.length
    cases cb with
    | create =>
      rw [owes_create, List.count_cons_of_ne hj] at hcount
      exact hcount
    | stop | start => exact hcount
  · obtain ⟨r, hr, hn, idx', hp⟩ := hC.created n h1 h2
    rw [hrounds] at hr
    rcases List.mem_cons.mp hr with rfl | hr
    · cases hp
      exact ⟨⟨s.currentNode, .calling .create idx, taken rest⟩, List.mem_cons_self, hn, idx, rfl⟩
    · exact ⟨r, List.mem_cons_of_mem _ hr, hn, idx', hp⟩
  · have hm := hC.running hr
    rw [hk] at hm
    simpa using Or.inr hm

/-- It returns. -/
theorem Counts.back (hC : Counts p ty i s) {rest : List (Frame V)} (hk : s.stack = .callback i ty :: rest)
    {r : Option V}
    (h : s.step (.user (.done r)) = .ok s') (make : ℕ → E) : Counts (p.returned make) ty i s' := by
  obtain ⟨-, rfl⟩ := SimCx.step_callback_done hk h
  have hrounds : s.rounds = Refault.rounds s.currentNode rest := by
    rw [SimCx.rounds, hk]
    rfl
  obtain ⟨hlen, hrun⟩ := p.returned_length make
  have hmaking : (p.returned make).making = 0 := by simp [PerNode.making, hrun]
  refine ⟨?_, fun n h1 h2 => ?_, fun h => absurd hrun h⟩
  · have hcount := hC.count
    rw [hrounds] at hcount
    change (p.returned make).simulators.length + owed i (Refault.rounds s.currentNode rest) +
      (p.returned make).making = s.ex.nodes.length
    omega
  · obtain ⟨r, hr, hn, idx, hp⟩ := hC.created n (by omega) h2
    rw [hrounds] at hr
    exact ⟨r, hr, hn, idx, hp⟩

/-- A creation in progress is that of a further node. -/
theorem creating_second (hr : SimCx.Reachable b s) {n : NodeId} (h : Creating s n) : 2 ≤ s.ex.nodes.length := by
  refine hr.induct (P := fun s => ∀ n, Creating s n → 2 ≤ s.ex.nodes.length) ?_
    (fun m l m' hm hI hst n hc => ?_) n h
  · rintro n ⟨r, hr, -⟩
    simp [SimCx.rounds, SimCx.install, Frame.phase] at hr
  · have hm : SimCx.Reachable b m := hm
    have ht := (SimCx.step_next hm.base hst).turn hm.base
    have hle := ht.length_le
    obtain ⟨r, hr, hn, idx, hp⟩ := hc
    rcases ht.creating hr hp with ⟨r₀, h0, h1, h2⟩ | ⟨-, hlen⟩
    · exact (hI n ⟨r₀, h0, h1.trans hn, h2⟩).trans hle
    · have := hm.nodes_pos
      omega

end PerNodeCx

/-! ## Steps -/

namespace PerNodeCx

variable {E V Q : Type} {makers : SimTy → Option (ℕ → E)} {b : SimBuilder} {s s' : PerNodeCx E V Q}

@[simp] theorem set_cx (ty : SimTy) (p : PerNode E) : (s.set ty p).cx = s.cx := rfl
@[simp] theorem set_calls (ty : SimTy) (p : PerNode E) : (s.set ty p).calls = s.calls := rfl
@[simp] theorem set_self (ty : SimTy) (p : PerNode E) : (s.set ty p).perNode ty = p := Function.update_self ..

theorem set_of_ne {ty ty' : SimTy} (h : ty' ≠ ty) (p : PerNode E) : (s.set ty p).perNode ty' = s.perNode ty' :=
  Function.update_of_ne h ..

variable [KeyedQueue Q Loc Instant]

theorem step_cx {l : Label V} (h : step makers s (.cx l) = .ok s') :
    ∃ cx t, s.cx.step l = .ok cx ∧ s.follow makers l = .ok t ∧ s' = { t with cx := cx } := by
  obtain ⟨cx, h1, h⟩ := Except.bind_eq_ok_iff.mp h
  obtain ⟨t, h2, h⟩ := Except.bind_eq_ok_iff.mp h
  cases h
  refine ⟨cx, t, ?_, h2, rfl⟩
  cases hst : s.cx.step l with
  | error e => rw [hst] at h1; cases h1
  | ok cx' => rw [hst] at h1; cases h1; rfl

/-- An access to an entry: `with_node`, or a change by a callback to the entry it was called for. -/
theorem step_access {l : PerNodeLabel E V} (hl : ∀ l', l ≠ .cx l') (h : step makers s l = .ok s') :
    ∃ ty n f p, (s.perNode ty).index n f = some p ∧ s' = s.set ty p ∧
      (l = .withNode n f ∨ ∃ cb, (s.perNode ty).running = some (cb, n) ∧ l = .change f) := by
  cases l with
  | cx l => exact absurd rfl (hl l)
  | withNode n f =>
    simp only [step] at h
    split at h
    · next i ty rest hk =>
      split at h
      · next p _ hp =>
        cases h
        exact ⟨ty, n, f, p, hp, rfl, Or.inl rfl⟩
      · cases h
      · cases h
    · cases h
  | change f =>
    simp only [step] at h
    split at h
    · next i ty rest hk =>
      split at h
      · cases h
      · next cb n _ _ hrun =>
        split at h
        · next p hp =>
          cases h
          exact ⟨ty, n, f, p, hp, rfl, Or.inr ⟨cb, hrun, rfl⟩⟩
        · cases h
      · cases h
    · cases h

theorem Reachable.sim (hr : Reachable makers b s) : SimCx.Reachable b s.cx := by
  refine hr.induct (P := fun s => SimCx.Reachable b s.cx) ?_ fun m l m' _ hm hst => ?_
  · exact Machine.Steps.refl _
  by_cases hl : ∃ l', l = .cx l'
  · obtain ⟨l', rfl⟩ := hl
    obtain ⟨cx, t, h1, -, rfl⟩ := step_cx hst
    exact hm.tail h1
  · push Not at hl
    obtain ⟨ty, n, f, p, -, rfl, -⟩ := step_access hl hst
    exact hm

/-- The calls of `NodeSimulator`s of `ty` that the round in a frame at `depth` has made. -/
def callsAt (calls : List NodeCall) (depth : ℕ) (ty : SimTy) : List NodeCall :=
  calls.filter fun c => c.depth = depth ∧ c.ty = ty

/-- What a step of the simulation does to the vector of `ty`. -/
inductive Follow (makers : SimTy → Option (ℕ → E)) (s t : PerNodeCx E V Q) (ty : SimTy) : Label V → Prop
  | add (make : ℕ → E) (hm : makers ty = some make) (h : t.perNode ty = .new make) (hc : t.calls = s.calls) :
      Follow makers s t ty (.user (.addSimulator ty))
  | call (order : List Id) (cb : Callback) (len i : ℕ) (idx : List ℕ) (c : NodeId) (rest : List (Frame V))
      (hk : s.cx.stack = .sims cb len (i :: idx) c :: rest) (hs : s.cx.simulators[i]? = some (some ty))
      (h : t.perNode ty = { s.perNode ty with running := some (cb, s.cx.currentNode) })
      (hn : cb ≠ .create → s.cx.currentNode < (s.perNode ty).simulators.length)
      (hc : t.calls = s.calls ++ if cb = .create then [] else [⟨rest.length + 1, ty, cb, s.cx.currentNode⟩]) :
      Follow makers s t ty (.run order)
  | back (r : Option V) (i : ℕ) (rest : List (Frame V)) (hk : s.cx.stack = .callback i ty :: rest) (make : ℕ → E)
      (hm : makers ty = some make) (h : t.perNode ty = (s.perNode ty).returned make) (hc : t.calls = s.calls) :
      Follow makers s t ty (.user (.done r))
  | same (l : Label V) (h : t.perNode ty = s.perNode ty) (hc : ∀ d, callsAt t.calls d ty = callsAt s.calls d ty)
      (ha : l ≠ .user (.addSimulator ty))
      (hs : ∀ order cb len i idx c rest, l = .run order → s.cx.stack = .sims cb len (i :: idx) c :: rest →
        s.cx.simulators[i]? ≠ some (some ty))
      (hd : ∀ r i rest, l = .user (.done r) → s.cx.stack ≠ .callback i ty :: rest) : Follow makers s t ty l

omit [KeyedQueue Q Loc Instant] in
theorem follow_ok {t : PerNodeCx E V Q} {l : Label V} (h : s.follow makers l = .ok t) {ty : SimTy} {make : ℕ → E}
    (hm : makers ty = some make) : t.cx = s.cx ∧ Follow makers s t ty l := by
  unfold follow at h
  split at h
  · next _ ty' =>
    by_cases hty : ty = ty'
    · subst hty
      rw [hm] at h
      cases h
      exact ⟨rfl, .add make hm (set_self ..) rfl⟩
    · refine ⟨by split at h <;> cases h <;> rfl,
        .same _ ?_ (fun d => ?_) (by simpa using Ne.symm hty) (by simp) (by simp)⟩
      · split at h <;> cases h
        · exact set_of_ne hty _
        · rfl
      · split at h <;> cases h <;> rfl
  · next r i ty' rest hk =>
    by_cases hty : ty = ty'
    · subst hty
      rw [hm] at h
      cases h
      exact ⟨rfl, .back r i rest hk make hm (set_self ..) rfl⟩
    · refine ⟨by split at h <;> cases h <;> rfl, .same _ ?_ (fun d => ?_) (by simp) (by simp) ?_⟩
      · split at h <;> cases h
        · exact set_of_ne hty _
        · rfl
      · split at h <;> cases h <;> rfl
      · rintro r' i' rest' - hk'
        rw [hk] at hk'
        cases hk'
        exact hty rfl
  · next order cb len i idx c rest hk =>
    have hsame : ∀ {t : PerNodeCx E V Q}, t.perNode ty = s.perNode ty →
        (∀ d, callsAt t.calls d ty = callsAt s.calls d ty) → s.cx.simulators[i]? ≠ some (some ty) →
        Follow makers s t ty (.run order) := by
      intro t ht hc hs
      refine .same _ ht hc (by simp) ?_ (by simp)
      rintro order' cb' len' i' idx' c' rest' - hk'
      rw [hk] at hk'
      cases hk'
      exact hs
    split at h
    · next ty' hs =>
      by_cases hty : ty = ty'
      · subst hty
        rw [hm] at h
        cases cb with
        | create =>
          cases h
          exact ⟨rfl, .call order .create len i idx c rest hk hs (set_self ..) (by simp) (by simp)⟩
        | stop | start =>
          simp only at h
          split_ifs at h with hn
          cases h
          exact ⟨rfl, .call order _ len i idx c rest hk hs (set_self ..) (fun _ => hn) (by simp)⟩
      · have hne : s.cx.simulators[i]? ≠ some (some ty) := by
          rw [hs]
          simpa using Ne.symm hty
        split at h
        · cases h
          exact ⟨rfl, hsame (set_of_ne hty _) (fun d => rfl) hne⟩
        · split_ifs at h
          cases h
          refine ⟨rfl, hsame (set_of_ne hty _) (fun d => ?_) hne⟩
          simp [callsAt, Ne.symm hty]
        · cases h
          exact ⟨rfl, hsame rfl (fun d => rfl) hne⟩
    · next hs =>
      cases h
      exact ⟨rfl, hsame rfl (fun d => rfl) fun h => hs ty h⟩
  · next h1 h2 h3 =>
    cases h
    refine ⟨rfl, .same _ rfl (fun d => rfl) (fun h => h1 ty h) ?_ fun r i rest h hk => h2 r i ty rest h hk⟩
    rintro order cb len i idx c rest h hk -
    exact h3 order cb len i idx c rest h hk

/-! ## The invariant -/

/-- Every `PerNode` that was added is good, and counts the nodes. -/
def Covered (makers : SimTy → Option (ℕ → E)) (s : PerNodeCx E V Q) : Prop :=
  ∀ ty make i, makers ty = some make → s.cx.simulatorsByType ty = some i →
    (s.perNode ty).Good make ∧ Counts (s.perNode ty) ty i s.cx

theorem Covered.cx (hC : Covered makers s) (hr : SimCx.Reachable b s.cx) {l : Label V} {cx : SimCx V Q}
    {t : PerNodeCx E V Q} (hst : s.cx.step l = .ok cx) (hf : s.follow makers l = .ok t) :
    Covered makers { t with cx := cx } := by
  intro ty make i hm hty
  have hO := hr.out
  have hS := hr.slots
  -- a type that was added before
  have hold : l ≠ .user (.addSimulator ty) → s.cx.simulatorsByType ty = some i := fun hl => by
    rw [← (SimCx.step_next hr.base hst).byType_eq hl]
    exact hty
  cases (follow_ok hf hm).2 with
  | add make' hm' h hc =>
    obtain rfl : make' = make := by
      rw [hm] at hm'
      exact (Option.some.inj hm').symm
    obtain ⟨hone, hex, hrounds, -⟩ := SimCx.step_addSimulator hst
    have hcount : (PerNode.new make').simulators.length = 1 := rfl
    have hzero : owed i s.cx.rounds = 0 := owed_eq_zero fun r hr' idx hp => by
      have := creating_second hr ⟨r, hr', rfl, idx, hp⟩
      omega
    change (t.perNode ty).Good make' ∧ Counts (t.perNode ty) ty i cx
    rw [h]
    refine ⟨PerNode.good_new make', ?_, fun n h1 h2 => ?_, fun hrun => absurd rfl hrun⟩
    · rw [hrounds, hzero, hex, hone]
      rfl
    · rw [hex] at h2
      rw [hcount] at h1
      omega
  | call order cb len j idx c rest hk hs h hn hc =>
    obtain ⟨hG, hCt⟩ := hC ty make i hm (hold (by simp))
    obtain rfl : j = i := by
      have := hS.slot j ty hs
      rw [hold (by simp)] at this
      exact (Option.some.inj this).symm
    change (t.perNode ty).Good make ∧ Counts (t.perNode ty) ty j cx
    rw [h]
    exact ⟨⟨hG.made, hG.value, hG.accessed⟩, hCt.call hO hk hs hst⟩
  | back r j rest hk make' hm' h hc =>
    obtain rfl : make' = make := by
      rw [hm] at hm'
      exact (Option.some.inj hm').symm
    obtain ⟨hG, hCt⟩ := hC ty make' i hm (hold (by simp))
    obtain rfl : j = i := by
      have := hS.out j ty (Or.inl (hk ▸ List.mem_cons_self))
      rw [hold (by simp)] at this
      exact (Option.some.inj this).symm
    change (t.perNode ty).Good make' ∧ Counts (t.perNode ty) ty j cx
    rw [h]
    exact ⟨hG.returned, hCt.back hk hst make'⟩
  | same _ h hc ha hs hd =>
    obtain ⟨hG, hCt⟩ := hC ty make i hm (hold ha)
    change (t.perNode ty).Good make ∧ Counts (t.perNode ty) ty i cx
    rw [h]
    refine ⟨hG, ?_⟩
    by_cases hcall : ∃ cb len j idx c rest, s.cx.stack = .sims cb len (j :: idx) c :: rest
    · obtain ⟨cb, len, j, idx, c, rest, hk⟩ := hcall
      obtain ⟨⟨order, rfl⟩, sim, hsim, -⟩ := SimCx.step_sims hk hst
      refine hCt.call_other hk ?_ hst
      rintro rfl
      refine hs order cb len j idx c rest rfl hk ?_
      rw [hsim, hS.inj ty sim j (hold ha) (hS.slot j sim hsim)]
    · push Not at hcall
      exact hCt.turn hr hst (hold ha) hcall fun r rest hl => hd r i rest hl

omit [KeyedQueue Q Loc Instant] in
theorem Covered.access (hC : Covered makers s) {ty : SimTy} {n : NodeId} {f : E → E} {p : PerNode E}
    (hp : (s.perNode ty).index n f = some p) : Covered makers (s.set ty p) := by
  intro ty' make i hm hty
  obtain ⟨hG, hCt⟩ := hC ty' make i hm hty
  by_cases h : ty' = ty
  · subst h
    rw [set_self]
    refine ⟨hG.index hp, ?_⟩
    obtain ⟨-, rfl⟩ := PerNode.index_eq hp
    exact ⟨by simpa [PerNode.making] using hCt.count, fun n h1 h2 => hCt.created n (by simpa using h1) h2,
      hCt.running⟩
  · rw [set_of_ne h]
    exact ⟨hG, hCt⟩

theorem Reachable.covered (hr : Reachable makers b s) : Covered makers s := by
  refine hr.induct (P := Covered makers) ?_ fun m l m' hm hC hst => ?_
  · intro ty make i hm hty
    cases hty
  · by_cases hl : ∃ l', l = .cx l'
    · obtain ⟨l', rfl⟩ := hl
      obtain ⟨cx, t, h1, h2, rfl⟩ := step_cx hst
      exact hC.cx (Reachable.sim hm) h1 h2
    · push Not at hl
      obtain ⟨ty, n, f, p, hp, rfl, -⟩ := step_access hl hst
      exact hC.access hp

end PerNodeCx

end Refault
