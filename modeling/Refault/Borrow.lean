import Refault.Scopes

/-!
# Refault.Borrow — futures dropped inside `with_cx`

A future that is aborted from outside its poll is dropped after the context is released.  A future that goes
at the end of its poll is dropped inside the `with_cx` of `run_current_context`, so its destructor cannot use
the context.
-/

namespace Refault

namespace SimCx

variable {V Q : Type} [KeyedQueue Q Loc Instant] {b : SimBuilder} {s s' : SimCx V Q} {l : Label V}

/-- With `l` a poll ends and its future goes: it returns `Poll::Ready`, or `Poll::Pending` after the task was
aborted. -/
def EndsDropping (s : SimCx V Q) : Label V → Prop
  | .user (.done (some _)) => (∃ c rest, s.stack = .poll c :: rest) ∧ s.ex.polling ≠ s.root
  | .user (.done none) =>
    (∃ c rest, s.stack = .poll c :: rest) ∧ ∃ id, s.ex.polling = some id ∧ s.ex.state id = .abortedReady
  | .run _ => ∃ v c rest, s.stack = .rootStop v c :: rest
  | _ => False

/-- A future that is dropped at the end of a poll. -/
theorem pollEnd_dropped {e e' : Exec V} (hI : e.Inv) {id : Id} {r : Option V} {t : Task}
    (hr : e.running = some ⟨id, true⟩) (h : e.pollEnd ⟨id, true⟩ r = .ok (some t, e')) :
    e'.log = e.log ++ [.ret id r, .drop id true] := by
  cases r with
  | none =>
    rcases Exec.pollEnd_pending hI hr with ⟨-, hp⟩ | ⟨-, hp⟩ <;> rw [hp] at h <;> cases h
    exact List.append_assoc e.log [_] [_]
  | some v =>
    rcases Exec.pollEnd_ready hI v hr with ⟨-, hp⟩ | ⟨-, hp⟩ <;> rw [hp] at h <;> cases h <;>
      exact List.append_assoc e.log [_] [_]

/-- The drops inside `with_cx` are made by these steps. -/
theorem Next.drop_borrowed (h : Next s l s') {id : Id} (hd : .drop id true ∈ s'.ex.log)
    (hn : .drop id true ∉ s.ex.log) : s.EndsDropping l := by
  rw [← mem_drops] at hd hn
  have hquiet : drops id s'.ex.log ≠ drops id s.ex.log := fun h0 => hn (h0 ▸ hd)
  cases h with
  | exec op e hu hq => exact absurd (hq.drops id) hquiet
  | wakeTask order rest loc t id' q e hk hp' hs he' => exact absurd ((Exec.wakeByRef_quiet he').drops id) hquiet
  | abort id' hu hc hl hp' =>
    refine absurd hd ?_
    by_cases hj : id' = id <;> simp [Exec.dropUnsent, Obs.dropOf, hj, hn]
  | stopDrop order id' ids caller rest hk hc hl hp' =>
    refine absurd hd ?_
    by_cases hj : id' = id <;> simp [Exec.dropUnsent, Obs.dropOf, hj, hn]
  | stopNext order id' ids caller rest e hk hc hl =>
    rcases hl with ⟨-, rfl⟩ | ⟨-, -, rfl⟩ <;> exact absurd (by simp [Obs.dropOf]) hquiet
  | pollDropped l caller rest id' r e hk hc hr' hd' he ha hr'' hf =>
    have hp := Exec.polling_of_running hr'
    rcases hk with ⟨hk, rfl, hroot⟩ | ⟨v, order, hk, -, rfl⟩
    · cases r with
      | none => exact ⟨⟨_, _, hk⟩, id', hp, by simpa using hd'⟩
      | some v => exact ⟨⟨_, _, hk⟩, fun h0 => hroot rfl (h0 ▸ hp)⟩
    · exact ⟨v, _, _, hk⟩
  | _ =>
    exact absurd (by simp [Obs.dropOf, Exec.insertTask, Exec.clearHead, Exec.takeHead, Exec.setRunLevel]) hquiet

/-- And all of these steps make one. -/
theorem EndsDropping.drop (he : s.EndsDropping l) (hB : s.Base) (h : s.step l = .ok s') :
    ∃ id, .drop id true ∈ s'.ex.log := by
  have key : ∀ r caller rest, s.endPoll r caller rest = .ok s' →
      (∀ id, s.ex.polling = some id → s.ex.state id = .abortedReady ∨ r.isSome) →
          ∃ id, .drop id true ∈ s'.ex.log := by
    intro r caller rest h hd
    obtain ⟨-, id, hr, ⟨hl, rfl, rfl⟩ | ⟨-, e, ⟨t, hp⟩, -, -, -, rfl⟩⟩ := endPoll_ok hB.exec h
    · rcases hd id (Exec.polling_of_running hr) with h0 | h0
      · rw [h0] at hl; cases hl
      · cases h0
    · refine ⟨id, ?_⟩
      show _ ∈ e.log
      rw [pollEnd_dropped hB.exec hr hp]
      simp
  cases l with
  | user op =>
    cases op with
    | done r =>
      cases r with
      | none =>
        obtain ⟨⟨c, rest, hk⟩, id, hp, hs⟩ := he
        simp only [step, hk, Frame.isUser, if_true, userOp, done] at h
        refine key _ _ _ h fun id' hp' => Or.inl ?_
        rw [hp] at hp'
        exact Option.some.inj hp' ▸ hs
      | some v =>
        obtain ⟨⟨c, rest, hk⟩, hroot⟩ := he
        replace hroot : s.ex.running.map (·.id) ≠ s.root := hroot
        simp only [step, hk, Frame.isUser, if_true, userOp, done] at h
        rw [if_neg hroot] at h
        exact key _ _ _ h fun _ _ => Or.inr rfl
    | _ => exact he.elim
  | run order =>
    obtain ⟨v, c, rest, hk⟩ := he
    simp only [step, runtime, hk] at h
    exact key _ _ _ h fun _ _ => Or.inr rfl

/-- The destructor that runs inside `with_cx` is of a future dropped there. -/
theorem Next.post_dropped (h : Next s l s') (hB : s.Base)
    (hK : ∀ id c rest, s.stack = .discard id true c :: rest → .drop id true ∈ s.ex.log) (id : Id) (c : NodeId)
    (rest : List (Frame V)) (hk : s'.stack = .discard id true c :: rest) : .drop id true ∈ s'.ex.log := by
  obtain ⟨os, hos⟩ := h.log hB
  have hlog : .drop id true ∈ s.ex.log → .drop id true ∈ s'.ex.log := fun h0 => by
    rw [hos]
    exact List.mem_append_left _ h0
  have hpop : ∀ {f : Frame V} {rest' : List (Frame V)}, s.stack = f :: rest' → s'.stack = rest' →
      .drop id true ∈ s'.ex.log := fun h0 h1 => by
    rw [← h1, hk] at h0
    exact absurd (h0 ▸ hB.shape) Shape.post_top
  cases h with
  | pollDropped l caller rest' id' r e hk' hc hr' hd' he ha hr'' hf =>
    obtain ⟨t, he⟩ := he
    cases hk
    show _ ∈ e.log
    rw [pollEnd_dropped hB.exec hr' he]
    simp
  | doneWaker r rest' hk' | doneDropSim r rest' hk' | stopAllDone order rest' hk' | wakeDone order rest' hk' hs =>
    exact hpop hk' rfl
  | pollKept caller rest' id' hk' hc hr hl => exact hpop hk' rfl
  | doneDiscard r id' post caller rest' hk' => exact hpop hk' rfl
  | putBack r i sim rest' hk' hc hs => rcases hk' with hk' | hk' <;> exact hpop hk' rfl
  | simsDone order cb len caller rest' hk' hc hlen => exact hpop hk' rfl
  | _ => first | exact hlog (hK _ _ _ hk) | cases hk

theorem Reachable.post_dropped (hr : Reachable b s) {id : Id} {c : NodeId} {rest : List (Frame V)}
    (hk : s.stack = .discard id true c :: rest) : .drop id true ∈ s.ex.log :=
  hr.invariant (I := fun s => ∀ id c rest, s.stack = .discard id true c :: rest → .drop id true ∈ s.ex.log)
    (fun _ _ _ h => by cases h) (fun _ _ _ hB hK h => h.post_dropped hB hK) id c rest hk

/-- **Futures are dropped outside `with_cx` exactly in the runs where no future goes at the end of its poll**:
a run drops none while the context is borrowed iff no poll in it returns `Poll::Ready`, or `Poll::Pending`
after its task was aborted in it.  In such a run every destructor of a future can borrow the context. -/
theorem drops_unborrowed_iff {ls : List (Label V)} (hr : Machine.run step (install b) ls = .ok s) :
    Machine.Along step (fun m l => ¬ EndsDropping m l) (install b : SimCx V Q) ls ↔
      (∀ id, .drop id true ∉ s.ex.log) ∧
        ∀ id post c rest, s.stack = .discard id post c :: rest → s.borrow = .ok () := by
  have hB : s.Base := Reachable.base ⟨ls, hr⟩
  constructor
  · intro hA
    have hno : s.Base ∧ ∀ id, .drop id true ∉ s.ex.log := by
      refine hA.inv (I := fun m => m.Base ∧ ∀ id, .drop id true ∉ m.ex.log) (fun m l m' hm hne hst => ?_) hr
        ⟨base_install b, fun id h => by cases h⟩
      have hn := step_next hm.1 hst
      exact ⟨hn.base hm.1, fun id hd => hne (hn.drop_borrowed hd (hm.2 id))⟩
    refine ⟨hno.2, fun id post c rest hk => ?_⟩
    have hS := hB.shape
    rw [hk] at hS
    rcases hS.discard_eq with ⟨-, hc, -⟩ | ⟨rfl, -⟩
    · rw [borrow, hc]
    · exact absurd (Reachable.post_dropped ⟨ls, hr⟩ hk) (hno.2 id)
  · rintro ⟨hno, -⟩
    refine Machine.along_iff.mpr ?_
    rintro ls₁ l ls₂ m rfl hm he
    obtain ⟨m₀, h1, h2⟩ := Machine.run_append.mp hr
    obtain rfl : m₀ = m := Except.ok.inj (h1.symm.trans hm)
    obtain ⟨m', hst, h3⟩ := Machine.run_cons.mp h2
    have hBm : m₀.Base := Reachable.base ⟨ls₁, hm⟩
    obtain ⟨id, hid⟩ := he.drop hBm hst
    exact hno id ((step_base hBm hst).log_mem ⟨ls₂, h3⟩ hid)

/-- A spawned task registers a `Sleep` and returns a value while it still owns it. -/
def ownedSleepRun : List (Label ℕ) :=
  [.user (.done none), .run [], .user (.spawn 0), .user (.done none), .run [],
    .user (.newSleep 0 fiveSeconds), .user (.pollSleep 0 (.task 2)), .user (.done (some 7))]

/-- The destructor of that `Sleep` runs while the context is borrowed, and panics. -/
theorem drops_borrowed_sleep : ∃ s : ArraySim, Reachable epoch s ∧ .drop 2 true ∈ s.ex.log ∧
    s.stack.head? = some (.discard 2 true 0) ∧
    s.step (.user (.dropSleep 0)) = .error (.panic .alreadyBorrowed) := by
  obtain ⟨s, hs, hq⟩ : ∃ s : ArraySim, Machine.run step (install epoch) ownedSleepRun = .ok s ∧
      (s.ex.log.contains (.drop 2 true), s.stack.head?, (s.step (.user (.dropSleep 0))).map (fun _ => ())) =
        (true, some (.discard 2 true 0), .error (.panic .alreadyBorrowed)) :=
    Machine.exists_of_run (by decide +kernel)
  simp only [Prod.mk.injEq] at hq
  obtain ⟨h1, h2, h3⟩ := hq
  refine ⟨s, ⟨_, hs⟩, by simpa using h1, h2, ?_⟩
  cases hst : s.step (.user (.dropSleep 0)) with
  | error e => rw [hst] at h3; exact congrArg _ (Except.error.inj h3)
  | ok s' => rw [hst] at h3; cases h3

/-- A spawned task registers a `Sleep` and waits; the root task aborts it, and the destructor of the `Sleep`
runs. -/
def abortedSleeperRun : List (Label ℕ) :=
  ownedSleepRun.dropLast ++ [.user (.wake 1), .user (.done none), .run [], .user (.abort 2), .user (.dropSleep 0),
    .user (.done none)]

theorem drops_unborrowed_iff_aborted : ∃ s : ArraySim, Machine.run step (install epoch) abortedSleeperRun = .ok s ∧
    .drop 2 false ∈ s.ex.log ∧ s.ts.sleeps 0 = none ∧
      Machine.Along step (fun m l => ¬ EndsDropping m l) (install epoch : ArraySim) abortedSleeperRun := by
  obtain ⟨s, hs, hq⟩ : ∃ s : ArraySim, Machine.run step (install epoch) abortedSleeperRun = .ok s ∧
      (s.stack, s.ts.sleeps 0, s.ex.log) =
        ([.poll 0, .loop], none, [.spawn 1 0, .wake 1, .poll 1, .spawn 2 0, .wake 2,
        .ret 1 none, .poll 2, .wake 1, .ret 2 none, .poll 1, .abort 2, .drop 2 false]) :=
    Machine.exists_of_run (by decide +kernel)
  simp only [Prod.mk.injEq] at hq
  obtain ⟨hk, hsl, hlog⟩ := hq
  refine ⟨s, hs, by rw [hlog]; simp, hsl,
    (drops_unborrowed_iff hs).mpr ⟨fun id hd => ?_, fun id post c rest hk' => ?_⟩⟩
  · rw [hlog] at hd
    simp at hd
  · rw [hk] at hk'
    cases hk'

end SimCx

end Refault
