import Refault.Lifecycle

/-!
# Refault.Unwind — a panic that reaches `ContextInstallGuard`

A panic unwinds the control stack frame by frame.  While the code of a frame is unwound its destructors run,
and these may make calls, with frames of their own on top; a second panic there aborts the process.  The
guards of `node_scope`, of `with_cx` and of `SimulatorHandle::with` put back what they have changed; a
`stop_node` that is unwound forgets the tasks it had still to abort.  Below the last frame
`ContextInstallGuard` is dropped, and its `destroy` stops the simulation once more and takes the context.
-/

namespace Refault

variable {V Q : Type}

/-- A panicking thread: the last `depth` frames are still to be unwound, those above are calls made on the way. -/
structure Unwinding (V Q : Type) where
  cx : SimCx V Q
  depth : ℕ

/-- A step: of code that runs while the thread is panicking, or the end of the frame that is unwound. -/
inductive PanicLabel (V : Type)
  | code (l : Label V)
  | unwind

namespace SimCx

/-- The task that was being polled is dropped; no function reads `running` from then on. -/
def dropRunning (s : SimCx V Q) : Exec V :=
  match s.ex.running with
  | none => s.ex
  | some t => s.ex.dropTask t false

/-- The panic leaves a frame. -/
def unwindFrame (s : SimCx V Q) (f : Frame V) (rest : List (Frame V)) : Except Halt (SimCx V Q) :=
  match f with
  | .poll caller | .rootStop _ caller => .ok { s with ex := s.dropRunning, currentNode := caller, stack := rest }
  | .discard _ post caller =>
    .ok { s with cell := if post then .free else s.cell, currentNode := caller, stack := rest }
  | .stopNode _ caller | .sims _ _ _ caller => .ok { s with currentNode := caller, stack := rest }
  | .waking => .ok { s with cell := .free, stack := rest }
  | .withSim i sim => s.putBack i sim rest
  | _ => .ok { s with stack := rest }

/-- `ContextInstallGuard::drop`, where the assertion of `destroy` on the queue holds since the thread is
panicking. -/
def dropGuard (s : SimCx V Q) : Except Halt (SimCx V Q) :=
  if s.currentNode ≠ initNode then .error (.panic (.site .destroyNode))
  else if s.cell = .taken then .error .disabled
  else ({ s with stack := [.dropSims s.time] } : SimCx V Q).stopSimulation

/-- The panic begins: every frame is to be unwound. -/
def panicking (s : SimCx V Q) : Unwinding V Q := ⟨s, s.stack.length⟩

end SimCx

namespace Unwinding

variable [KeyedQueue Q Loc Instant]

def step (p : Unwinding V Q) : PanicLabel V → Except Halt (Unwinding V Q)
  | .code l =>
    if p.depth < p.cx.stack.length then do
      let cx ← p.cx.step l
      pure { p with cx := cx }
    else
      -- destructors of the code that is unwound
      match l with
      | .user (.done _) | .run _ => .error .disabled
      | .user op => do
        let cx ← p.cx.step (.user op)
        pure { p with cx := cx }
  | .unwind =>
    if p.cx.stack.length = p.depth then
      match p.cx.stack with
      | [] => .error .disabled
      | f :: rest => do
        let cx ← p.cx.unwindFrame f rest
        match rest with
        | [] => do
          let cx ← cx.dropGuard
          pure ⟨cx, 0⟩
        | _ => pure ⟨cx, rest.length⟩
    else .error .disabled

end Unwinding

/-! ## Frames of calls -/

namespace SimCx

variable [KeyedQueue Q Loc Instant] {b : SimBuilder} {s s' : SimCx V Q} {l : Label V}

/-- A call leaves the frames it was made from, and puts frames of calls on top. -/
theorem Next.pushes (h : Next s l s') (hl : ∀ r, l ≠ .user (.done r)) (hl' : ∀ order, l ≠ .run order) :
    ∃ gs, s'.stack = gs ++ s.stack ∧ ∀ g ∈ gs, g.nests = true := by
  cases h with
  | abort | stop | start | createNode | stopSimulation | withSimulator => exact ⟨[_], rfl, by simp [Frame.nests]⟩
  | skip | exec | spawn | newSleep | pollSleep | dropSleep | addSimulator => exact ⟨[], rfl, by simp⟩
  | pollDropped l caller rest id r e hk hc hr hd he ha hr' hf =>
    rcases hk with ⟨-, rfl, -⟩ | ⟨v, order, -, -, rfl⟩
    · exact absurd rfl (hl r)
    · exact absurd rfl (hl' order)
  | doneInit r | doneWaker r | doneDiscard r | putBack r | doneDropSim r => exact absurd rfl (hl r)
  | rootReady v | pollKept => exact absurd rfl (hl _)
  | _ => exact absurd rfl (hl' _)

/-- While the frame of a call is on top, a step leaves the frames below it. -/
theorem Next.nests (h : Next s l s') {f : Frame V} {rest : List (Frame V)} (hk : s.stack = f :: rest)
    (hf : f.nests = true) : ∃ gs, s'.stack = gs ++ rest ∧ ∀ g ∈ gs, g.nests = true := by
  have hne : ∀ {f' : Frame V} {rest' : List (Frame V)}, s.stack = f' :: rest' → f'.nests = false → False := by
    intro f' rest' hk' hf'
    rw [hk] at hk'
    cases hk'
    rw [hf] at hf'
    cases hf'
  have htop : ∀ {f' : Frame V} {rest' : List (Frame V)}, s.stack = f' :: rest' → rest' = rest := by
    intro f' rest' hk'
    rw [hk] at hk'
    exact (List.cons.inj hk').2.symm
  by_cases hu : ∃ op, l = .user op ∧ ∀ r, op ≠ .done r
  · obtain ⟨op, rfl, hop⟩ := hu
    obtain ⟨gs, h1, h2⟩ := h.pushes (fun r h => hop r (Label.user.inj h)) (by simp)
    refine ⟨gs ++ [f], by simp [h1, hk], fun g hg => ?_⟩
    rcases List.mem_append.mp hg with hg | hg
    · exact h2 g hg
    · rw [List.mem_singleton.mp hg]
      exact hf
  · cases h with
    | doneInit r rest' id hk' | doneWaker r rest' hk' | doneDropSim r rest' hk' | wakeDone order rest' hk'
    | rootReady v caller rest' id hk' | pollKept caller rest' id hk' | exhausted order rest' hk'
    | advance order rest' loc next time hk' | clear order rest' id q st hk' | poll order rest' id q hk'
    | wakeTask order rest' loc t id q e hk' | wakeCustom order rest' loc t n q hk' | destroy order rest' hk'
    | dropSim order time rest' sim hk' | taken order time rest' hk' => exact (hne hk' rfl).elim
    | pollDropped l caller rest' id r e hk' =>
      rcases hk' with ⟨hk', -⟩ | ⟨v, order, hk', -⟩ <;> exact (hne hk' rfl).elim
    | doneDiscard r id post caller rest' hk' | stopAllDone order rest' hk'
    | simsDone order cb len caller rest' hk' =>
      exact ⟨[], by rw [← htop hk']; rfl, by simp⟩
    | putBack r i sim rest' hk' => rcases hk' with hk' | hk' <;> exact ⟨[], by rw [← htop hk']; rfl, by simp⟩
    | stopNext order id ids caller rest' e hk' | stopSims order caller rest' hk'
    | stopAllSkip order node nodes rest' nd hk' =>
      exact ⟨[_], by rw [← htop hk']; rfl, by simp [Frame.nests]⟩
    | stopDrop order id ids caller rest' hk' | simsNext order cb len i idx caller rest' sim hk'
    | stopAllRun order node nodes rest' nd hk' => exact ⟨[_, _], by rw [← htop hk']; rfl, by simp [Frame.nests]⟩
    | skip | exec => exact ⟨[f], hk, by simpa using hf⟩
    | _ => exact absurd ⟨_, rfl, by simp⟩ hu

/-- Only the loop begins a poll, and only the frame of a poll ends it. -/
theorem Next.running (h : Next s l s') (hk : ∀ rest, s.stack ≠ .loop :: rest) (hl : ∀ r, l = .user (.done r) →
    ∀ c rest, s.stack ≠ .poll c :: rest) (hk' : ∀ v c rest, s.stack ≠ .rootStop v c :: rest) :
    s'.ex.running = s.ex.running := by
  cases h with
  | exec op e hu hq => cases hq <;> simp [Exec.closeHandle]
  | abort id hu hc hl' hp | stopDrop order id ids caller rest hk0 hc hl' hp => simp [Exec.dropUnsent]
  | wakeTask order rest loc t id q e hk0 hp hs he => cases Exec.wakeByRef_quiet he <;> simp [Exec.closeHandle]
  | stopNext order id ids caller rest e hk0 hc hl' => rcases hl' with ⟨-, rfl⟩ | ⟨-, -, rfl⟩ <;> simp
  | poll order rest id q hk0 => exact absurd hk0 (hk rest)
  | pollKept caller rest id hk0 => exact absurd hk0 (hl _ rfl caller rest)
  | pollDropped l caller rest id r e hk0 =>
    rcases hk0 with ⟨hk0, rfl, -⟩ | ⟨v, order, hk0, -⟩
    · exact absurd hk0 (hl _ rfl caller rest)
    · exact absurd hk0 (hk' v caller rest)
  | _ => rfl

end SimCx

/-! ## Futures -/

namespace Exec

variable {e e' : Exec V} {id : Id}

/-- The future of `id` is in its slot. -/
def Kept (e : Exec V) (id : Id) : Prop := (e.state id).live = true ∧ e.polling ≠ some id

theorem dropTask_eq (e : Exec V) (t : Task) (d : Bool) :
    ∃ ch, e.dropTask t d = { e with chan := ch, log := e.log ++ [.drop t.id d] } := by
  unfold dropTask
  split_ifs
  · exact ⟨_, rfl⟩
  · exact ⟨_, rfl⟩

/-- A future that leaves its slot, while no poll begins or ends, is dropped. -/
theorem Act.kept (h : Act e e') (hr : e'.running = e.running) (hk : e.Kept id) :
    e'.Kept id ∨ ∃ d, .drop id d ∈ e'.log := by
  obtain ⟨hl, hp⟩ := hk
  have hp' : e'.polling ≠ some id := by
    rw [polling, hr]
    exact hp
  have hstay : e'.state id = e.state id → e'.Kept id ∨ ∃ d, .drop id d ∈ e'.log := fun hs => Or.inl ⟨hs ▸ hl, hp'⟩
  have hready : e'.state id = .ready → e'.Kept id ∨ ∃ d, .drop id d ∈ e'.log := fun hs =>
    Or.inl ⟨by rw [hs]; rfl, hp'⟩
  cases h with
  | spawn node j hrun hid hlt =>
    by_cases hj : id = j
    · exact hready (by simp [hj])
    · exact hstay (by simp [state_insertTask, hj])
  | wake j hs =>
    by_cases hj : id = j
    · exact hready (by simp [hj])
    · exact hstay (by simp [hj])
  | abortPolled j hs hpj =>
    have hj : id ≠ j := by
      rintro rfl
      exact hp hpj
    exact hstay (by simp [hj])
  | abort j hs hpj =>
    by_cases hj : id = j
    · exact Or.inr ⟨false, by simp [hj, dropUnsent]⟩
    · exact hstay (by simp [hj, dropUnsent])
  | poll j q hq hs hr0 hf => rw [hr0] at hr; cases hr
  | clear j q st hq hs hr0 hf =>
    have hj : id ≠ j := by
      rintro rfl
      rcases hs with ⟨h, -⟩ | ⟨h, -⟩ <;> rw [h] at hl <;> cases hl
    exact hstay (by simp [hj, clearHead])
  | pending j hr0 hs | ready j v hr0 hs | readyQueued j v hr0 hs => rw [hr0] at hr; cases hr
  | pendingAborted j hr0 hs => rw [hr0] at hr; simp [dropUnsent] at hr
  | _ => exact hstay rfl

/-- A task that is spawned is ready. -/
theorem Act.fresh (h : Act e e') (hs : e.state id = .taskEnd) : e'.state id = .taskEnd ∨ e'.state id = .ready := by
  have hne : ∀ {j : Id}, e.state j ≠ .taskEnd → id ≠ j := by
    rintro j hj rfl
    exact hj hs
  have hrun : ∀ {j : Id}, (e.state j).live = true → id ≠ j := fun hl => hne fun h => by
    rw [h] at hl
    cases hl
  cases h with
  | spawn node j hrun' hid hlt =>
    by_cases hj : id = j
    · exact Or.inr (by simp [hj])
    · exact Or.inl (by simp [state_insertTask, hj, hs])
  | wake j hj => exact Or.inl (by simp [hne (j := j) (by rw [hj]; decide), hs])
  | abortPolled j hl hp => exact Or.inl (by simp [hrun hl, hs])
  | abort j hl hp => exact Or.inl (by simp [hrun hl, hs, dropUnsent])
  | poll j q hq hj hr hf => exact Or.inl (by simp [hne (j := j) (by rw [hj]; decide), hs, takeHead])
  | clear j q st hq hj hr hf =>
    have : id ≠ j := hne (by rcases hj with ⟨h, -⟩ | ⟨h, -⟩ <;> rw [h] <;> decide)
    exact Or.inl (by simp [this, hs, clearHead])
  | pending j hr hj => exact Or.inl (by simpa using hs)
  | pendingAborted j hr hj => exact Or.inl (by simpa [dropUnsent] using hs)
  | ready j v hr hj =>
    have : id ≠ j := hne (by rw [hj]; decide)
    exact Or.inl (by simp [this, hs, sent])
  | readyQueued j v hr hj =>
    have : id ≠ j := hne (by rcases hj with h | h <;> rw [h] <;> decide)
    exact Or.inl (by simp [this, hs, sent])
  | _ => exact Or.inl hs

end Exec

/-! ## The teardown -/

namespace Frame

def polls : Frame V → Bool
  | .poll _ | .rootStop _ _ => true
  | _ => false

end Frame

theorem Nested.polls {r : Bool} {fs : List (Frame V)} (h : Nested r fs) : (∃ f ∈ fs, f.polls = true) ↔
    r = true := by
  induction h with
  | push h hg hf ih =>
    rw [← ih]
    constructor
    · rintro ⟨f, hm, hp⟩
      rcases List.mem_cons.mp hm with rfl | hm
      · cases f <;> simp [Frame.polls, Frame.nests] at hp hf
      · exact ⟨f, hm, hp⟩
    · rintro ⟨f, hm, hp⟩
      exact ⟨f, List.mem_cons_of_mem _ hm, hp⟩
  | _ => simp [Frame.polls]

theorem Shape.polls {c : CxCell} {r : Bool} {fs : List (Frame V)} (h : Shape c r fs) :
    (∃ f ∈ fs, f.polls = true) ↔ r = true := by
  cases h with
  | free h => exact h.polls
  | _ => simp [Frame.polls]

theorem Shape.finished_mem {c : CxCell} {r : Bool} {fs : List (Frame V)} (h : Shape c r fs) {time : Duration}
    (hm : .finished time ∈ fs) : fs = [.finished time] := by
  cases h with
  | free h => exact absurd rfl ((h.not_borrowed hm).2.2.2 time)
  | finished t =>
    rw [List.mem_singleton] at hm
    rw [hm]
  | _ => simp at hm

/-- The stack of a thread that is dropping its `ContextInstallGuard`. -/
def Ending (fs : List (Frame V)) : Prop :=
  ∃ top bot, fs = top ++ [bot] ∧ (∀ f ∈ top, f.nests = true ∨ f = .dropSim) ∧ ∃ time, bot = .dropSims time ∨
    bot = .finished time

theorem Ending.plain {fs : List (Frame V)} (hE : Ending fs) {f : Frame V} (hf : f ∈ fs) :
    f.polls = false ∧ f ≠ .loop ∧ f ≠ .waking := by
  obtain ⟨top, bot, rfl, htop, time, hbot⟩ := hE
  have hplain : f.nests = true → f.polls = false ∧ f ≠ .loop ∧ f ≠ .waking := by
    cases f <;> simp [Frame.nests, Frame.polls]
  rcases List.mem_append.mp hf with hf | hf
  · rcases htop f hf with h | rfl
    · exact hplain h
    · simp [Frame.polls]
  · rw [List.mem_singleton.mp hf]
    rcases hbot with rfl | rfl <;> simp [Frame.polls]

namespace Unwinding

variable [KeyedQueue Q Loc Instant] {b : SimBuilder} {p p' : Unwinding V Q}

/-- The step leaves no `stop_node` that has still to abort a task of a node that is stopped. -/
def NothingLeft (p : Unwinding V Q) : PanicLabel V → Prop
  | .code _ => True
  | .unwind => ∀ ids c rest, p.cx.stack = .stopNode ids c :: rest → ∀ id ∈ ids, p.cx.ex.Kept id →
      p.cx.ex.runLevel (p.cx.ex.node id) = some .running

end Unwinding

namespace SimCx

variable [KeyedQueue Q Loc Instant] {b : SimBuilder} {s s' : SimCx V Q} {l : Label V}

/-- What holds of the tasks while a panic unwinds: a future in its slot is covered, and one that is not is
dropped. -/
structure Salvaged (s : SimCx V Q) : Prop where
  exec : s.ex.Inv
  known : ∀ ids c, .stopNode ids c ∈ s.stack → ∀ id ∈ ids, s.ex.state id ≠ .taskEnd
  cover : ∀ id, s.ex.Kept id → s.Cover id
  recorded : ∀ id, s.ex.state id ≠ .taskEnd → s.ex.Kept id ∨
    (s.ex.polling = some id ∧ ∃ f ∈ s.stack, f.polls = true) ∨ ∃ d, .drop id d ∈ s.ex.log
  polling : (∃ f ∈ s.stack, f.polls = true) → s.ex.running.isSome

theorem Reachable.salvaged (hr : Reachable b s) : s.Salvaged := by
  have hB := hr.base
  have hpolls : (∃ f ∈ s.stack, f.polls = true) ↔ s.ex.running.isSome = true := hB.shape.polls
  refine ⟨hB.exec, fun ids c hm id hid => ?_, fun id h => hr.covered id h.1, fun id hs => ?_, hpolls.mp⟩
  · obtain ⟨top, rest, hk⟩ := List.append_of_mem hm
    have hF := hB.frames
    rw [hk] at hF
    exact (hF.fits id hid).1
  · by_cases hp : s.ex.polling = some id
    · refine Or.inr (Or.inl ⟨hp, hpolls.mpr ?_⟩)
      unfold Exec.polling at hp
      cases hr : s.ex.running with
      | none => rw [hr] at hp; cases hp
      | some t => rfl
    · by_cases hl : (s.ex.state id).live = true
      · exact Or.inl ⟨hl, hp⟩
      · obtain ⟨r, d, hd, -⟩ := (hr.accounts id).closed (by rintro (h | h | h); exacts [hs h, hl h, hp h])
        exact Or.inr (Or.inr ⟨d, mem_drops.mp (by rw [hd]; exact List.mem_singleton_self d)⟩)

/-- A step that leaves the frames of polls. -/
theorem Salvaged.step (hV : s.Salvaged) (hS : s.Sane) (h : s.step l = .ok s') (hr : s'.ex.running = s.ex.running)
    (hf : ∀ f : Frame V, f.polls = true → (f ∈ s'.stack ↔ f ∈ s.stack)) : s'.Salvaged := by
  have hn := hS.next h
  have hact := hS.act hn
  have hpolls : (∃ f ∈ s'.stack, f.polls = true) ↔ ∃ f ∈ s.stack, f.polls = true := by
    constructor
    · rintro ⟨f, hm, hp⟩
      exact ⟨f, (hf f hp).mp hm, hp⟩
    · rintro ⟨f, hm, hp⟩
      exact ⟨f, (hf f hp).mpr hm, hp⟩
  have hpolling : s'.ex.polling = s.ex.polling := by rw [Exec.polling, Exec.polling, hr]
  have hend : ∀ id, s.ex.state id ≠ .taskEnd → s'.ex.state id ≠ .taskEnd := by
    intro id hs
    rcases hact with he | he
    · rw [he]; exact hs
    · exact (he.on hV.exec ⟨hs, rfl⟩).1
  refine ⟨?_, fun ids c hm id hid => ?_, fun id hk => ?_, fun id hs => ?_,
    fun h => by rw [hr]; exact hV.polling (hpolls.mp h)⟩
  · rcases hact with he | he
    · rw [he]; exact hV.exec
    · exact he.inv hV.exec
  · refine hend id ?_
    rcases hn.mem_stack hm with hm | hp
    · exact hV.known ids c hm id hid
    · cases hp with
      | stopNode _ _ hids =>
        rcases hids with ⟨j, hm⟩ | ⟨n, nd, hnd, ho⟩
        · exact hV.known _ c hm id (List.mem_cons_of_mem _ hid)
        · have hmem : id ∈ nd.tasks := by
            rw [← ho]
            exact List.mem_toFinset.mpr hid
          have he := (hV.exec.isSome_iff id).mp ((hV.exec.node_tasks n nd hnd id).mp hmem).1
          intro h0
          rw [h0] at he
          cases he
  · exact Cover.step (fun hl => hV.cover id ⟨hl, hpolling ▸ hk.2⟩) hS h hk.1
  · by_cases hs0 : s.ex.state id = .taskEnd
    · rcases hact with he | he
      · rw [he] at hs
        exact absurd hs0 hs
      · rcases he.fresh hs0 with h0 | h0
        · exact absurd h0 hs
        · refine Or.inl ⟨by rw [h0]; rfl, fun hp => ?_⟩
          rw [hpolling, Exec.polling] at hp
          obtain ⟨t, ht, rfl⟩ := Option.map_eq_some_iff.mp hp
          rcases (hV.exec.running t ht).2 with h1 | h1 | h1 <;> rw [hs0] at h1 <;> cases h1
    · rcases hV.recorded id hs0 with hk | ⟨hp, hm⟩ | ⟨d, hd⟩
      · rcases hact with he | he
        · rw [he]
          exact Or.inl hk
        · rcases he.kept hr hk with h1 | h1
          · exact Or.inl h1
          · exact Or.inr (Or.inr h1)
      · exact Or.inr (Or.inl ⟨hpolling.trans hp, hpolls.mpr hm⟩)
      · refine Or.inr (Or.inr ⟨d, ?_⟩)
        rcases hact with he | he
        · rw [he]; exact hd
        · obtain ⟨os, hos⟩ := he.log
          rw [hos]
          exact List.mem_append_left _ hd

omit [KeyedQueue Q Loc Instant] in
theorem unwindFrame_ok {f : Frame V} {rest : List (Frame V)} (h : s.unwindFrame f rest = .ok s') :
    s'.stack = rest ∧ (f.polls = false ∧ s'.ex = s.ex ∨ f.polls = true ∧ s'.ex = s.dropRunning) := by
  cases f with
  | withSim i sim =>
    obtain ⟨-, -, rfl⟩ := putBack_ok h
    exact ⟨rfl, Or.inl ⟨rfl, rfl⟩⟩
  | poll c | rootStop v c => cases h; exact ⟨rfl, Or.inr ⟨rfl, rfl⟩⟩
  | _ => cases h; exact ⟨rfl, Or.inl ⟨rfl, rfl⟩⟩

omit [KeyedQueue Q Loc Instant] in
/-- A frame is unwound, no task being forgotten. -/
theorem Salvaged.unwind (hV : s.Salvaged) {f : Frame V} {rest : List (Frame V)} (hk : s.stack = f :: rest)
    (h : s.unwindFrame f rest = .ok s') (hleft : ∀ ids c, f = .stopNode ids c → ∀ id ∈ ids, s.ex.Kept id →
      s.ex.runLevel (s.ex.node id) = some .running) : s'.Salvaged := by
  obtain ⟨hk', he⟩ := unwindFrame_ok h
  have hmem : ∀ {g : Frame V}, g ∈ s'.stack → g ∈ s.stack := fun hm => by
    rw [hk]
    exact List.mem_cons_of_mem _ (hk' ▸ hm)
  -- the tasks are as before
  have hsame : s'.ex.Inv ∧ s'.ex.running = s.ex.running ∧ s'.ex.state = s.ex.state ∧ s'.ex.node = s.ex.node ∧
      s'.ex.nodes = s.ex.nodes ∧ (∀ o ∈ s.ex.log, o ∈ s'.ex.log) ∧
      (f.polls = true → ∀ id, s.ex.polling = some id → ∃ d, .drop id d ∈ s'.ex.log) := by
    rcases he with ⟨hf, he⟩ | ⟨hf, he⟩
    · rw [he]
      exact ⟨hV.exec, rfl, rfl, rfl, rfl, fun _ h => h, fun h => absurd (hf.symm.trans h) (by decide)⟩
    · rw [he]
      unfold dropRunning
      cases hr : s.ex.running with
      | none =>
        refine ⟨hV.exec, hr, rfl, rfl, rfl, fun _ h => h, fun _ id hp => ?_⟩
        rw [Exec.polling, hr] at hp
        cases hp
        | some t =>
        obtain ⟨ch, ht⟩ := Exec.dropTask_eq s.ex t false
        show (s.ex.dropTask t false).Inv ∧ (s.ex.dropTask t false).running = _ ∧
          (s.ex.dropTask t false).state = _ ∧
          (s.ex.dropTask t false).node = _ ∧ (s.ex.dropTask t false).nodes = _ ∧
            (∀ o ∈ _, o ∈ (s.ex.dropTask t false).log) ∧
          (_ → ∀ id, _ → ∃ d, _ ∈ (s.ex.dropTask t false).log)
        rw [ht]
        refine ⟨⟨hV.exec.nodup, hV.exec.queued, hV.exec.tasks_eq, hV.exec.running, hV.exec.node_tasks,
          hV.exec.node_lt,
          hV.exec.fresh, hV.exec.bound⟩, hr, rfl, rfl, rfl, fun o ho => List.mem_append_left _ ho,
            fun _ id hp => ⟨false, ?_⟩⟩
        rw [Exec.polling, hr] at hp
        cases hp
        simp
  obtain ⟨hI, hr, hst, hnode, hnodes, hlog, hdrop⟩ := hsame
  have hpolling : s'.ex.polling = s.ex.polling := by rw [Exec.polling, Exec.polling, hr]
  have hkept : ∀ id, s'.ex.Kept id ↔ s.ex.Kept id := fun id => by rw [Exec.Kept, Exec.Kept, hst, hpolling]
  refine ⟨hI, fun ids c hm id hid => by rw [hst]; exact hV.known ids c (hmem hm) id hid,
    fun id hid => ?_, fun id hs => ?_, ?_⟩
  · have hlv : s'.ex.runLevel (s'.ex.node id) = s.ex.runLevel (s.ex.node id) := by
      rw [hnode, Exec.runLevel, Exec.runLevel, hnodes]
    rcases hV.cover id ((hkept id).mp hid) with hrun | ⟨base, top, ids, c, hks, hids⟩
    · exact Or.inl (hlv.trans hrun)
    · cases top with
      | nil =>
        rw [hk] at hks
        cases hks
        exact Or.inl (hlv.trans (hleft ids c rfl id hids ((hkept id).mp hid)))
      | cons g top =>
        rw [hk] at hks
        cases hks
        exact Or.inr ⟨base, top, ids, c, hk', hids⟩
  · rw [hst] at hs
    rcases hV.recorded id hs with hkp | ⟨hp, g, hm, hg⟩ | ⟨d, hd⟩
    · exact Or.inl ((hkept id).mpr hkp)
    · rw [hk] at hm
      rcases List.mem_cons.mp hm with rfl | hm
      · exact Or.inr (Or.inr (hdrop hg id hp))
      · exact Or.inr (Or.inl ⟨hpolling.trans hp, g, hk' ▸ hm, hg⟩)
    · exact Or.inr (Or.inr ⟨d, hlog _ hd⟩)
  · rintro ⟨g, hm, hp⟩
    rw [hr]
    exact hV.polling ⟨g, hmem hm, hp⟩

omit [KeyedQueue Q Loc Instant] in
/-- `ContextInstallGuard::drop` begins: nothing is left on the stack that could have forgotten a task. -/
theorem Salvaged.dropGuard (hV : s.Salvaged) (hk : s.stack = []) (h : s.dropGuard = .ok s') :
    s'.Salvaged ∧ Ending s'.stack ∧ s'.ex.finalStopped = true ∧ s'.Closing := by
  unfold SimCx.dropGuard at h
  split_ifs at h
  obtain ⟨-, rfl⟩ := stopSimulation_ok h
  refine ⟨⟨hV.exec.setFinalStopped _, fun ids c hm => by simp at hm, fun id hid => ?_, fun id hs => ?_, ?_⟩,
    ⟨[_], _, rfl, by simp [Frame.nests], s.time, Or.inl rfl⟩, rfl, fun _ n hn => Or.inr ⟨_, List.mem_cons_self,
      List.mem_range.mpr hn⟩⟩
  · rcases hV.cover id hid with hrun | ⟨base, top, ids, c, hks, -⟩
    · exact Or.inl hrun
    · rw [hk] at hks
      simp at hks
  · rcases hV.recorded id hs with hkp | ⟨-, g, hm, -⟩ | hd
    · exact Or.inl hkp
    · rw [hk] at hm
      cases hm
    · exact Or.inr (Or.inr hd)
  · rintro ⟨g, hm, hg⟩
    simp only [List.mem_cons, List.not_mem_nil, or_false] at hm
    rcases hm with rfl | rfl <;> cases hg

/-- The stack of a thread that is dropping its guard keeps its form. -/
theorem step_ending (hE : Ending s.stack) (hS : s.Sane) (h : s.step l = .ok s') :
    Ending s'.stack ∧ s'.ex.running = s.ex.running := by
  have hn := hS.next h
  have hrun : s'.ex.running = s.ex.running := by
    refine hn.running (fun rest h0 => ?_) (fun _ _ c rest h0 => ?_) fun v c rest h0 => ?_
    · exact (hE.plain (f := .loop) (by rw [h0]; exact List.mem_cons_self)).2.1 rfl
    · cases (hE.plain (f := .poll c) (by rw [h0]; exact List.mem_cons_self)).1
    · cases (hE.plain (f := .rootStop v c) (by rw [h0]; exact List.mem_cons_self)).1
  refine ⟨?_, hrun⟩
  obtain ⟨top, bot, hk, htop, time, hbot⟩ := hE
  cases top with
  | nil =>
    rw [List.nil_append] at hk
    rcases hbot with rfl | rfl
    · obtain ⟨order, -, h⟩ := step_runtime h hk rfl
      simp only [runtime, hk] at h
      obtain ⟨-, h⟩ := borrow_bind.mp h
      split at h
      · cases h
        exact ⟨[], _, rfl, by simp, time, Or.inr rfl⟩
      · cases h
      · cases h
        exact ⟨[_], _, rfl, by simp, time, Or.inl rfl⟩
    · obtain ⟨order, -, h⟩ := step_runtime h hk rfl
      simp only [runtime, hk] at h
      cases h
  | cons f top =>
    have hrest : ∀ gs : List (Frame V), (∀ g ∈ gs, g.nests = true) → s'.stack = gs ++ (top ++ [bot]) →
        Ending s'.stack := by
      intro gs hgs hk'
      refine ⟨gs ++ top, bot, by simp [hk'], fun g hg => ?_, time, hbot⟩
      rcases List.mem_append.mp hg with hg | hg
      · exact Or.inl (hgs g hg)
      · exact htop g (List.mem_cons_of_mem _ hg)
    rcases htop f List.mem_cons_self with hf | rfl
    · obtain ⟨gs, h1, h2⟩ := hn.nests hk hf
      exact hrest gs h2 h1
    · -- the destructor of a simulator
      cases l with
      | run order =>
        simp only [SimCx.step, runtime, hk, List.cons_append] at h
        cases h
      | user op =>
        by_cases hop : ∃ r, op = .done r
        · obtain ⟨r, rfl⟩ := hop
          simp only [SimCx.step, hk, List.cons_append, Frame.isUser, if_true, userOp, done] at h
          cases h
          exact hrest [] (by simp) rfl
        · obtain ⟨gs, h1, h2⟩ := hn.pushes (fun r h => hop ⟨r, Label.user.inj h⟩) (by simp)
          refine ⟨gs ++ .dropSim :: top, bot, by simp [h1, hk], fun g hg => ?_, time, hbot⟩
          rcases List.mem_append.mp hg with hg | hg
          · exact Or.inl (h2 g hg)
          · exact htop g hg

end SimCx

namespace Unwinding

variable [KeyedQueue Q Loc Instant] {b : SimBuilder} {p p' : Unwinding V Q} {s : SimCx V Q}

/-- What holds from the panic to the end of the thread. -/
structure Inv (p : Unwinding V Q) : Prop where
  tasks : p.cx.Salvaged
  unwinds : 0 < p.depth → (∀ time, .finished time ∉ p.cx.stack) ∧
    ∃ top base, p.cx.stack = top ++ base ∧ base.length = p.depth ∧ ∀ f ∈ top, f.nests = true
  ends : p.depth = 0 → Ending p.cx.stack ∧ p.cx.ex.finalStopped = true ∧ p.cx.Closing

theorem inv_panicking (hr : SimCx.Reachable b s) (hfin : ∀ time, .finished time ∉ s.stack) : s.panicking.Inv := by
  refine ⟨hr.salvaged, fun _ => ⟨hfin, [], s.stack, rfl, rfl, by simp⟩, fun h => ?_⟩
  obtain ⟨f, rest, hk⟩ := hr.base.stack_ne
  have : s.stack.length = 0 := h
  rw [hk] at this
  cases this

theorem step_code {l : Label V} (h : p.step (.code l) = .ok p') : p'.depth = p.depth ∧ p.cx.step l = .ok p'.cx ∧
    (p.depth < p.cx.stack.length ∨ (∀ r, l ≠ .user (.done r)) ∧ ∀ order, l ≠ .run order) := by
  unfold step at h
  dsimp only at h
  split_ifs at h with hd
  · obtain ⟨cx, hcx, h⟩ := Except.bind_eq_ok_iff.mp h
    cases h
    exact ⟨rfl, hcx, Or.inl hd⟩
  · split at h
    · cases h
    · cases h
    · rename_i op hop
      obtain ⟨cx, hcx, h⟩ := Except.bind_eq_ok_iff.mp h
      cases h
      exact ⟨rfl, hcx, Or.inr ⟨fun r h => hop r (Label.user.inj h), by simp⟩⟩

theorem Inv.code {l : Label V} (hI : p.Inv) (h : p.step (.code l) = .ok p') : p'.Inv := by
  obtain ⟨hdepth, hst, hl⟩ := step_code h
  rcases Nat.eq_zero_or_pos p.depth with h0 | hpos
  · -- the guard is being dropped
    obtain ⟨hE, hf, hC⟩ := hI.ends h0
    have hS : p.cx.Sane := by
      refine ⟨hI.tasks.exec, fun rest hk => ?_, fun rest hk => ?_, fun c rest hk => ?_, fun ids c rest hk => ?_⟩
      · exact absurd rfl (hE.plain (f := .waking) (by rw [hk]; exact List.mem_cons_self)).2.2
      · exact absurd rfl (hE.plain (f := .loop) (by rw [hk]; exact List.mem_cons_self)).2.1
      · cases (hE.plain (f := .poll c) (by rw [hk]; exact List.mem_cons_self)).1
      · exact hI.tasks.known ids c (by rw [hk]; exact List.mem_cons_self)
    obtain ⟨hE', hr⟩ := SimCx.step_ending hE hS hst
    refine ⟨hI.tasks.step hS hst hr fun f hf => ⟨fun hm => ?_, fun hm => ?_⟩, fun h => absurd h (by omega),
        fun _ =>
      ⟨hE', hS.finalStopped (hS.next hst) hf, SimCx.step_closing hS hC hst⟩⟩
    · rw [(hE'.plain hm).1] at hf
      cases hf
    · rw [(hE.plain hm).1] at hf
      cases hf
  · -- the frames below `base` are still to be unwound
    obtain ⟨hfin, top, base, hk, hlen, htop⟩ := hI.unwinds hpos
    have hS : p.cx.Sane := by
      have hfirst : ∀ f rest, p.cx.stack = f :: rest → f.nests = true ∨ f.isUser = true := by
        intro f rest hk'
        cases top with
        | cons g top =>
          rw [hk] at hk'
          cases hk'
          exact Or.inl (htop _ List.mem_cons_self)
        | nil =>
          rcases hl with hl | ⟨-, hl⟩
          · rw [hk, List.nil_append, hlen] at hl
            exact absurd hl (lt_irrefl _)
          · cases l with
            | run order => exact absurd rfl (hl order)
            | user op =>
              simp only [SimCx.step, hk'] at hst
              split_ifs at hst with hu
              exact Or.inr hu
      refine ⟨hI.tasks.exec, fun rest hk' => ?_, fun rest hk' => ?_, fun c rest hk' _ => ?_,
        fun ids c rest hk' => ?_⟩
      · rcases hfirst _ _ hk' with h | h <;> cases h
      · rcases hfirst _ _ hk' with h | h <;> cases h
      · exact hI.tasks.polling ⟨_, by rw [hk']; exact List.mem_cons_self, rfl⟩
      · exact hI.tasks.known ids c (by rw [hk']; exact List.mem_cons_self)
    have hn := hS.next hst
    -- the step puts frames of calls where there were frames of calls
    obtain ⟨gs, pre, top', hk', hkp, hgs, hpre, htop', hrun⟩ : ∃ gs pre top', p'.cx.stack = gs ++ (top' ++ base) ∧
        p.cx.stack = pre ++ (top' ++ base) ∧ (∀ g ∈ gs, g.nests = true) ∧ (∀ g ∈ pre, g.nests = true) ∧
        (∀ g ∈ top', g.nests = true) ∧ p'.cx.ex.running = p.cx.ex.running := by
      cases top with
      | cons f top =>
        have hf := htop f List.mem_cons_self
        obtain ⟨gs, h1, h2⟩ := hn.nests (show p.cx.stack = f :: (top ++ base) from hk) hf
        refine ⟨gs, [f], top, h1, hk, h2, by simpa using hf, fun g hg => htop g (List.mem_cons_of_mem _ hg), ?_⟩
        refine hn.running (fun rest h0 => ?_) (fun _ _ c rest h0 => ?_) fun v c rest h0 => ?_ <;>
          (rw [hk] at h0; cases h0; cases hf)
      | nil =>
        have hl' : (∀ r, l ≠ .user (.done r)) ∧ ∀ order, l ≠ .run order := by
          refine hl.resolve_left ?_
          rw [hk, List.nil_append, hlen]
          exact lt_irrefl _
        obtain ⟨gs, h1, h2⟩ := hn.pushes hl'.1 hl'.2
        refine ⟨gs, [], [], by rw [h1, hk], hk, h2, by simp, by simp, ?_⟩
        cases l with
        | run order => exact absurd rfl (hl'.2 order)
        | user op =>
          have hu : p.cx.InUser := by
            obtain ⟨f, rest, hks⟩ := SimCx.step_stack_ne hst
            simp only [SimCx.step, hks] at hst
            split_ifs at hst with hu
            exact ⟨f, rest, hks, hu⟩
          obtain ⟨f, rest, hks, hu⟩ := hu
          refine hn.running (fun rest' h0 => ?_) (fun r h0 => absurd h0 (hl'.1 r)) fun v c rest' h0 => ?_ <;>
            (rw [hks] at h0; cases h0; cases hu)
    have hno : ∀ {f : Frame V}, f.polls = true → ∀ {fs : List (Frame V)}, (∀ g ∈ fs, g.nests = true) → f ∉ fs := by
      intro f hf fs hfs hm
      have := hfs f hm
      cases f <;> simp [Frame.polls, Frame.nests] at hf this
    refine ⟨hI.tasks.step hS hst hrun fun f hf => ?_, fun _ => ⟨fun time hm => ?_, gs ++ top', base, by simp [hk'],
      hlen.trans hdepth.symm, fun g hg => ?_⟩, fun h => absurd h (by omega)⟩
    · rw [hk', hkp]
      simp only [List.mem_append (t := top' ++ base)]
      exact ⟨fun h => Or.inr (h.resolve_left (hno hf hgs)), fun h => Or.inr (h.resolve_left (hno hf hpre))⟩
    · rw [hk'] at hm
      rcases List.mem_append.mp hm with hm | hm
      · cases hgs _ hm
      · exact hfin time (by rw [hkp]; exact List.mem_append_right _ hm)
    · rcases List.mem_append.mp hg with hg | hg
      · exact hgs g hg
      · exact htop' g hg

theorem Inv.unwind (hI : p.Inv) (hleft : p.NothingLeft .unwind) (h : p.step .unwind = .ok p') : p'.Inv := by
  unfold step at h
  dsimp only at h
  split_ifs at h with hd
  cases hk : p.cx.stack with
  | nil => rw [hk] at h; cases h
  | cons f rest =>
    rw [hk] at h
    obtain ⟨cx, hcx, h⟩ := Except.bind_eq_ok_iff.mp h
    have hpos : 0 < p.depth := by
      rw [← hd, hk]
      exact Nat.succ_pos _
    obtain ⟨hfin, -⟩ := hI.unwinds hpos
    have hV := hI.tasks.unwind hk hcx fun ids c hf id hid => hleft ids c rest (by rw [hk, hf]) id hid
    have hks := (SimCx.unwindFrame_ok hcx).1
    cases rest with
    | nil =>
      obtain ⟨cx', hcx', h⟩ := Except.bind_eq_ok_iff.mp h
      cases h
      obtain ⟨h1, h2⟩ := hV.dropGuard hks hcx'
      exact ⟨h1, fun h => absurd h (lt_irrefl _), fun _ => h2⟩
    | cons g rest =>
      cases h
      refine ⟨hV, fun _ => ⟨fun time hm => hfin time ?_, [], _, hks, rfl, by simp⟩, fun h => by cases h⟩
      rw [hk]
      exact List.mem_cons_of_mem _ (hks ▸ hm)

end Unwinding

namespace SimCx

variable [KeyedQueue Q Loc Instant] {b : SimBuilder} {s : SimCx V Q}

/-- **The teardown is complete after a panic that no stop forgets a task in.**  A destructor panics while
`stop_node` is aborting the tasks of a node, and the panic unwinds to the drop of `ContextInstallGuard`.  If
no `stop_node` that is unwound on the way has still to abort a task of a stopped node, then where `destroy`
has taken the context the future of every task was dropped before, and none is in the executor that is dropped
next. -/
theorem panic_drops_all (hr : Reachable b s) {top rest : List (Frame V)} {id : Id} {c c' : NodeId} {ids : List Id}
    (hk : s.stack = top ++ .discard id false c :: .stopNode ids c' :: rest) {ls : List (PanicLabel V)}
    {p : Unwinding V Q} (hrun : Machine.run Unwinding.step s.panicking ls = .ok p)
    (hc : Machine.Along Unwinding.step Unwinding.NothingLeft s.panicking ls) {time : Duration}
    (hp : p.cx.stack = [.finished time]) :
    (∀ id, p.cx.ex.state id ≠ .taskEnd → ∃ d, .drop id d ∈ p.cx.ex.log) ∧
      ∀ id entry, p.cx.ex.tasks id = some entry → entry.task = none := by
  have hfin : ∀ time, .finished time ∉ s.stack := by
    intro time hm
    have h1 := hr.base.shape.finished_mem hm
    have h2 : Frame.stopNode ids c' ∈ s.stack := by rw [hk]; simp
    rw [h1] at h2
    simp at h2
  have hI : p.Inv := hc.inv (I := Unwinding.Inv) (fun p l p' hI hleft hst => by
    cases l with
    | code l => exact hI.code hst
    | unwind => exact hI.unwind hleft hst) hrun (Unwinding.inv_panicking hr hfin)
  have h0 : p.depth = 0 := by
    rcases Nat.eq_zero_or_pos p.depth with h | h
    · exact h
    · exact absurd (by rw [hp]; simp) ((hI.unwinds h).1 time)
  obtain ⟨-, hf, hC⟩ := hI.ends h0
  -- every node is stopped for good, so no future is in its slot
  have hnone : ∀ id, ¬ p.cx.ex.Kept id := by
    intro id hkp
    have hlt := hI.tasks.exec.node_lt id fun h => by
      have := hkp.1
      rw [h] at this
      cases this
    rcases hI.tasks.cover id hkp with hrun | ⟨base, top, ids, c, hks, -⟩
    · rcases hC hf _ hlt with h | ⟨nodes, hm, -⟩
      · rw [hrun] at h
        cases h
      · rw [hp] at hm
        simp at hm
    · rw [hp] at hks
      have : Frame.stopNode ids c ∈ [(.finished time : Frame V)] := by rw [hks]; simp
      simp at this
  refine ⟨fun id hs => ?_, fun id entry he => ?_⟩
  · rcases hI.tasks.recorded id hs with h | ⟨-, f, hm, hf⟩ | h
    · exact absurd h (hnone id)
    · rw [hp, List.mem_singleton] at hm
      rw [hm] at hf
      cases hf
    · exact h
  · rw [hI.tasks.exec.tasks_eq] at he
    unfold Exec.expected at he
    have hlive : (p.cx.ex.state id).live = true → p.cx.ex.polling = some id := fun hl => by
      by_contra h
      exact hnone id ⟨hl, h⟩
    cases hs : p.cx.ex.state id <;> rw [hs] at he hlive <;> cases he
    · rfl
    · rfl
    · exact if_pos (hlive rfl)
    · exact if_pos (hlive rfl)

/-- A node is made, tasks are spawned on it, and it is stopped, up to the destructor of the first. -/
def stopTasksRun (n : ℕ) : List (Label ℕ) :=
  [.user .createNode, .run []] ++ List.replicate n (.user (.spawn 1)) ++
    [.user (.stop 1 ((List.range n).map (· + 1))), .run []]

/-- That destructor panics, and the panic is unwound to the end. -/
def unwindRun : List (PanicLabel ℕ) :=
  [.unwind, .unwind, .unwind, .code (.run []), .code (.run []), .code (.run []), .code (.run []), .code (.run []),
    .code (.run [])]

theorem step_unwind {p p' : Unwinding V Q} (h : p.step .unwind = .ok p') {f g : Frame V} {rest : List (Frame V)}
    (hk : p.cx.stack = f :: g :: rest) : p'.cx.stack = g :: rest := by
  unfold Unwinding.step at h
  dsimp only at h
  split_ifs at h
  rw [hk] at h
  obtain ⟨cx, hcx, h⟩ := Except.bind_eq_ok_iff.mp h
  cases h
  exact (unwindFrame_ok hcx).1

/-- Steps of code forget nothing. -/
theorem along_code (p : Unwinding V Q) (ls : List (Label V)) :
    Machine.Along Unwinding.step Unwinding.NothingLeft p (ls.map .code) := by
  induction ls generalizing p with
  | nil => trivial
  | cons l ls ih => exact ⟨trivial, fun m _ => ih m⟩

theorem panic_drops_all_single : ∃ (s : ArraySim) (p : Unwinding ℕ (SwapArray Loc Instant)),
    Machine.run step (install epoch) (stopTasksRun 1) = .ok s ∧
    Machine.run Unwinding.step s.panicking unwindRun = .ok p ∧ p.cx.cell = .taken ∧
    ∀ id, p.cx.ex.state id ≠ .taskEnd → ∃ d, .drop id d ∈ p.cx.ex.log := by
  obtain ⟨s, hs, hq⟩ : ∃ s : ArraySim, Machine.run step (install epoch) (stopTasksRun 1) = .ok s ∧
      (s.stack, (Machine.run Unwinding.step s.panicking unwindRun).map fun p => (p.cx.cell, p.cx.stack)) =
        ([.discard 1 false 1, .stopNode [] 0, .init], .ok (.taken, [.finished epoch.simulationStartTime])) :=
    Machine.exists_of_run rfl
  obtain ⟨hk, hq⟩ := Prod.mk.inj hq
  obtain ⟨p, hp, hq⟩ := Machine.exists_of_run hq
  obtain ⟨hcell, hend⟩ := Prod.mk.inj hq
  refine ⟨s, p, hs, hp, hcell,
    (panic_drops_all (b := epoch) ⟨_, hs⟩ (show s.stack = [] ++ _ from hk) hp ?_ hend).1⟩
  -- the stop that is unwound has no task left
  refine ⟨fun ids c rest h => ?_, fun m hm =>
    ⟨fun ids c rest h id hid => ?_, fun m' hm' => ⟨fun ids c rest h => ?_,
    fun m'' _ => along_code m'' (List.replicate 6 (.run []))⟩⟩⟩
  · cases hk.symm.trans h
  · cases (step_unwind hm hk).symm.trans h
    cases hid
  · cases (step_unwind hm' (step_unwind hm hk)).symm.trans h

/-- With a second task on the node: `stop_node` forgets it, the second stop finds the node stopped, and the
context is taken before its future is dropped. -/
theorem panic_forgets_task : ∃ (s : ArraySim) (p : Unwinding ℕ (SwapArray Loc Instant)), Reachable epoch s ∧
    s.stack = [.discard 1 false 1, .stopNode [2] 0, .init] ∧
    Machine.run Unwinding.step s.panicking unwindRun = .ok p ∧
    p.cx.stack = [.finished epoch.simulationStartTime] ∧ p.cx.cell = .taken ∧ p.cx.ex.state 2 ≠ .taskEnd ∧
    ¬ (∃ d, .drop 2 d ∈ p.cx.ex.log) ∧ ∃ entry, p.cx.ex.tasks 2 = some entry ∧ entry.task.isSome := by
  obtain ⟨s, hs, hq⟩ : ∃ s : ArraySim, Machine.run step (install epoch) (stopTasksRun 2) = .ok s ∧
      (s.stack, (Machine.run Unwinding.step s.panicking unwindRun).map fun p =>
        (p.cx.cell, p.cx.stack, p.cx.ex.state 2, drops 2 p.cx.ex.log, (p.cx.ex.tasks 2).map
          fun entry => entry.task.isSome)) =
      ([.discard 1 false 1, .stopNode [2] 0, .init],
        .ok (.taken, [.finished epoch.simulationStartTime], .ready, [], some true)) := Machine.exists_of_run rfl
  obtain ⟨hk, hq⟩ := Prod.mk.inj hq
  obtain ⟨p, hp, hq⟩ := Machine.exists_of_run hq
  simp only [Prod.mk.injEq] at hq
  obtain ⟨hcell, hend, hst, hd, htask⟩ := hq
  refine ⟨s, p, ⟨_, hs⟩, hk, hp, hend, hcell, by rw [hst]; decide, ?_, ?_⟩
  · rintro ⟨d, hm⟩
    have := mem_drops.mpr hm
    rw [hd] at this
    cases this
  · obtain ⟨entry, he, hs⟩ := Option.map_eq_some_iff.mp htask
    exact ⟨entry, he, hs⟩

end SimCx

end Refault
