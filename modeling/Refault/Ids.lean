import Mathlib.Data.List.Pairwise
import Refault.Lib.Machine
import Refault.Step

/-!
# Refault.Ids — `Id` and `IdRange`

One counter serves both kinds of allocation; its arithmetic wraps, as in the release profile.  A call that
panics leaves the counter as it has set it.  `Ids` is a simulation as far as ids go: the counter, the
allocations made and the ids returned, each with its allocation and its index there.  The steps of `SimCx`
take their ids from it (`Next.ids`).
-/

namespace Refault

/-- `usize`, on the 64-bit targets. -/
abbrev Usize := Fin (2 ^ 64)

/-- `Id::new`: the counter after the call, and the id; `none` is the panic of `NonZeroU64::new(id).unwrap()`. -/
def Id.new (pre : ℕ) : ℕ × Option ℕ := ((pre + 1) % 2 ^ 64, (newId pre).toOption)

/-- `IdRange`, a `RangeInclusive`. -/
structure IdRange where
  start : ℕ
  last : ℕ

namespace IdRange

/-- `IdRange::new`: the counter after the call, and the range; `none` are the panics. -/
def new (pre : ℕ) (len : Usize) : ℕ × Option IdRange :=
  if len.val = 0 then (pre, none)
  else
    let last := (pre + len.val) % 2 ^ 64
    let first := (last + 2 ^ 64 - (len.val - 1)) % 2 ^ 64
    (last, if first = 0 ∨ last = 0 then none else some ⟨first, last⟩)

def len (r : IdRange) : ℕ := (r.last + 2 ^ 64 - r.start + 1) % 2 ^ 64

/-- `IdRange::get`; `none` is the panic of `checked_add(..).unwrap()`.  The end of the range is not looked at. -/
def get (r : IdRange) (index : Usize) : Option ℕ :=
  if r.start + index.val < 2 ^ 64 then some (r.start + index.val) else none

end IdRange

/-- What an allocating call has returned. -/
inductive Alloc
  | id (x : ℕ)
  | range (r : IdRange)

namespace Alloc

def first : Alloc → ℕ
  | .id x => x
  | .range r => r.start

def count : Alloc → ℕ
  | .id _ => 1
  | .range r => r.len

end Alloc

/-- The calls; `get k i` is on the range that allocation `k` returned. -/
inductive IdCall
  | new
  | newRange (len : Usize)
  | get (k : ℕ) (index : Usize)

/-- `issued` are the ids returned, with the number of their allocation and the index there. -/
structure Ids where
  preNextGlobalId : ℕ
  allocs : List Alloc
  issued : List (ℕ × ℕ × ℕ)

namespace Ids

/-- `ContextInstallGuard::new`. -/
def install : Ids := ⟨0, [], []⟩

/-- A call, whose panic is caught. -/
def step (s : Ids) : IdCall → Except Halt Ids
  | .new =>
    match Id.new s.preNextGlobalId with
    | (pre, none) => .ok { s with preNextGlobalId := pre }
    | (pre, some x) => .ok ⟨pre, s.allocs ++ [.id x], s.issued ++ [(x, s.allocs.length, 0)]⟩
  | .newRange len =>
    match IdRange.new s.preNextGlobalId len with
    | (pre, none) => .ok { s with preNextGlobalId := pre }
    | (pre, some r) => .ok { s with preNextGlobalId := pre, allocs := s.allocs ++ [.range r] }
  | .get k index =>
    match s.allocs[k]? with
    | some (.range r) =>
      match r.get index with
      | none => .ok s
      | some x => .ok { s with issued := s.issued ++ [(x, k, index.val)] }
    | _ => .error .disabled

/-- An id that was returned twice came from one range and one index, and an index of a range is below its
length. -/
structure Sound (s : Ids) : Prop where
  unique : ∀ x o o', (x, o) ∈ s.issued → (x, o') ∈ s.issued → o = o'
  inRange : ∀ x k i r, (x, k, i) ∈ s.issued → s.allocs[k]? = some (.range r) → i < r.len

/-- The counter does not wrap, and an index past the end of its range panics. -/
def Safe (s : Ids) : IdCall → Prop
  | .new => s.preNextGlobalId + 1 < 2 ^ 64
  | .newRange len => s.preNextGlobalId + len.val < 2 ^ 64
  | .get k index => ∀ r, s.allocs[k]? = some (.range r) → index.val < r.len ∨ 2 ^ 64 ≤ r.start + index.val

/-- The `i`-th id of allocation `k`. -/
def Owns (s : Ids) (x k i : ℕ) : Prop := ∃ a, s.allocs[k]? = some a ∧ i < a.count ∧ x = a.first + i

/-- The allocations follow each other without gaps, up to the counter. -/
structure Inv (s : Ids) : Prop where
  bound : s.preNextGlobalId < 2 ^ 64
  disjoint : s.allocs.Pairwise fun a a' => a.first + a.count ≤ a'.first
  below : ∀ a ∈ s.allocs, 0 < a.first ∧ a.first + a.count ≤ s.preNextGlobalId + 1
  cover : ∀ x, 0 < x → x ≤ s.preNextGlobalId → ∃ k i, s.Owns x k i
  single : ∀ k x, s.allocs[k]? = some (.id x) → (x, k, 0) ∈ s.issued
  issued : ∀ x k i, (x, k, i) ∈ s.issued → s.Owns x k i

theorem inv_install : install.Inv where
  bound := by decide
  disjoint := List.Pairwise.nil
  below a ha := absurd ha List.not_mem_nil
  cover x h h' := by simp only [install] at h'; omega
  single k x h := by simp [install] at h
  issued x k i h := by simp [install] at h

end Ids

/-! ## Allocations -/

theorem Id.new_of_lt {pre : ℕ} (h : pre + 1 < 2 ^ 64) : Id.new pre = (pre + 1, some (pre + 1)) := by
  unfold Id.new newId
  rw [Nat.mod_eq_of_lt h]
  rfl

/-- A range that does not reach the end of the counter. -/
theorem IdRange.new_of_lt {pre : ℕ} {len : Usize} (hpos : 0 < len.val) (h : pre + len.val < 2 ^ 64) :
    IdRange.new pre len = (pre + len.val, some ⟨pre + 1, pre + len.val⟩) := by
  have hfirst : (pre + len.val + 2 ^ 64 - (len.val - 1)) % 2 ^ 64 = pre + 1 := by omega
  unfold IdRange.new
  rw [if_neg hpos.ne', Nat.mod_eq_of_lt h]
  simp only [hfirst]
  rw [if_neg (by omega)]

theorem IdRange.len_of_lt {pre n : ℕ} (hpos : 0 < n) (h : pre + n < 2 ^ 64) :
    IdRange.len ⟨pre + 1, pre + n⟩ = n := by
  unfold IdRange.len
  simp only
  omega

namespace Ids

variable {s s' : Ids}

theorem Owns.mono {x k i : ℕ} (h : s.Owns x k i) {bs : List Alloc} (hs : s'.allocs = s.allocs ++ bs) :
    s'.Owns x k i := by
  obtain ⟨a, ha, hi, hx⟩ := h
  refine ⟨a, ?_, hi, hx⟩
  rw [hs, List.getElem?_append_left (List.getElem?_eq_some_iff.mp ha).1]
  exact ha

/-- Two allocations share no id. -/
theorem Inv.owner_unique (hI : s.Inv) {x k i k' i' : ℕ} (h : s.Owns x k i) (h' : s.Owns x k' i') :
    k = k' ∧ i = i' := by
  obtain ⟨a, ha, hi, hx⟩ := h
  obtain ⟨a', ha', hi', hx'⟩ := h'
  obtain ⟨hk, rfl⟩ := List.getElem?_eq_some_iff.mp ha
  obtain ⟨hk', rfl⟩ := List.getElem?_eq_some_iff.mp ha'
  have hdis := List.pairwise_iff_getElem.mp hI.disjoint
  rcases Nat.lt_trichotomy k k' with hlt | rfl | hlt
  · have := hdis k k' hk hk' hlt
    omega
  · exact ⟨rfl, by omega⟩
  · have := hdis k' k hk' hk hlt
    omega

/-- The next allocation takes the ids after the counter. -/
theorem Inv.alloc (hI : s.Inv) {a : Alloc} {n : ℕ} (hf : a.first = s.preNextGlobalId + 1) (hc : a.count = n)
    (hlt : s.preNextGlobalId + n < 2 ^ 64) (hs : s'.preNextGlobalId = s.preNextGlobalId + n)
    (ha : s'.allocs = s.allocs ++ [a])
    (hi : s'.issued = s.issued ++ match a with | .id x => [(x, s.allocs.length, 0)] | .range _ => []) :
    s'.Inv where
  bound := hs ▸ hlt
  disjoint := by
    rw [ha, List.pairwise_append]
    refine ⟨hI.disjoint, List.pairwise_singleton _ _, fun b hb b' hb' => ?_⟩
    rw [List.mem_singleton.mp hb', hf]
    exact (hI.below b hb).2
  below b hb := by
    rw [ha, List.mem_append, List.mem_singleton] at hb
    rcases hb with hb | rfl
    · have := hI.below b hb
      omega
    · omega
  cover x hx hle := by
    by_cases hold : x ≤ s.preNextGlobalId
    · obtain ⟨k, i, hk⟩ := hI.cover x hx hold
      exact ⟨k, i, hk.mono ha⟩
    · exact ⟨s.allocs.length, x - a.first, a, by simp [ha], by omega, by omega⟩
  single k x hk := by
    rw [ha] at hk
    rw [hi]
    rcases Nat.lt_or_ge k s.allocs.length with hlt | hge
    · rw [List.getElem?_append_left hlt] at hk
      exact List.mem_append_left _ (hI.single k x hk)
    · rw [List.getElem?_append_right hge, List.getElem?_singleton] at hk
      split_ifs at hk with h0
      cases hk
      refine List.mem_append_right _ ?_
      simp only [List.mem_singleton, Prod.mk.injEq, and_true, true_and]
      omega
  issued x k i h := by
    rw [hi, List.mem_append] at h
    rcases h with h | h
    · exact (hI.issued x k i h).mono ha
    · cases a with
      | range r => simp at h
      | id y =>
        simp only [List.mem_singleton, Prod.mk.injEq] at h
        obtain ⟨rfl, rfl, rfl⟩ := h
        exact ⟨.id x, by simp [ha], Nat.one_pos, rfl⟩

/-- A safe call keeps the invariant. -/
theorem Inv.step (hI : s.Inv) {c : IdCall} (hc : s.Safe c) (h : s.step c = .ok s') : s'.Inv := by
  cases c with
  | new =>
    simp only [Ids.step, Id.new_of_lt hc] at h
    cases h
    exact hI.alloc (a := .id (s.preNextGlobalId + 1)) (n := 1) rfl rfl hc rfl rfl rfl
  | newRange len =>
    by_cases hpos : 0 < len.val
    · simp only [Ids.step, IdRange.new_of_lt hpos hc] at h
      cases h
      exact hI.alloc (a := .range ⟨s.preNextGlobalId + 1, s.preNextGlobalId + len.val⟩) rfl
        (IdRange.len_of_lt hpos hc) hc
        rfl rfl (List.append_nil _).symm
    · have hz : len.val = 0 := by omega
      simp only [Ids.step, IdRange.new, if_pos hz] at h
      cases h
      exact hI
  | get k index =>
    simp only [Ids.step] at h
    split at h
    · rename_i r hk
      split at h
      · cases h
        exact hI
      · rename_i x hx
        cases h
        unfold IdRange.get at hx
        split_ifs at hx with hlt
        cases hx
        refine { hI with single := fun k' x hk' => List.mem_append_left _ (hI.single k' x hk'), issued := ?_ }
        intro x k' i hm
        rcases List.mem_append.mp hm with hm | hm
        · exact hI.issued x k' i hm
        · simp only [List.mem_singleton, Prod.mk.injEq] at hm
          obtain ⟨rfl, rfl, rfl⟩ := hm
          exact ⟨.range r, hk, (hc r hk).resolve_right (by omega), rfl⟩
    · cases h

theorem Inv.sound (hI : s.Inv) : s.Sound where
  unique x o o' h h' := by
    obtain ⟨hk, hi⟩ := hI.owner_unique (hI.issued x o.1 o.2 h) (hI.issued x o'.1 o'.2 h')
    exact Prod.ext hk hi
  inRange x k i r h hk := by
    obtain ⟨a, ha, hi, -⟩ := hI.issued x k i h
    rw [hk] at ha
    cases ha
    exact hi

end Ids

/-! ## The simulation -/

theorem Exec.Act.counter {V : Type} {e e' : Exec V} (h : Exec.Act e e') : e'.preNextGlobalId = e.preNextGlobalId ∨
    e.preNextGlobalId + 1 < 2 ^ 64 ∧ e'.preNextGlobalId = e.preNextGlobalId + 1 := by
  cases h with
  | spawn node id hrun hid hlt | newId id hid hlt =>
    subst hid
    exact Or.inr ⟨hlt, rfl⟩
  | stop node level hrun hl => exact Or.inl (by simp [Exec.setRunLevel])
  | finalize node hrun | start node hrun => exact Or.inl rfl
  | pushNode | finalStop | rootReady | callback | exhausted => exact Or.inl rfl
  | _ => left; simp [Exec.dropUnsent, Exec.clearHead, Exec.takeHead, Exec.closeHandle, Exec.sent, Exec.unlink]

/-- A step of the simulation leaves the counter alone or makes a safe call of `Id::new`. -/
theorem SimCx.Next.ids {V Q : Type} [KeyedQueue Q Loc Instant] {s s' : SimCx V Q} {l : Label V} (h : Next s l s')
    (hB : s.Base) {i : Ids} (hi : i.preNextGlobalId = s.ex.preNextGlobalId) :
    ∃ i', (i' = i ∨ i.Safe .new ∧ i.step .new = .ok i') ∧ i'.preNextGlobalId = s'.ex.preNextGlobalId := by
  rcases h.act hB with he | he
  · exact ⟨i, Or.inl rfl, by rw [hi, he]⟩
  · rcases he.counter with hc | ⟨hlt, hc⟩
    · exact ⟨i, Or.inl rfl, by rw [hi, hc]⟩
    · have hsafe : i.preNextGlobalId + 1 < 2 ^ 64 := by rw [hi]; exact hlt
      have hstep : i.step .new = .ok ⟨i.preNextGlobalId + 1, i.allocs ++ [.id (i.preNextGlobalId + 1)],
          i.issued ++ [(i.preNextGlobalId + 1, i.allocs.length, 0)]⟩ := by
        simp only [Ids.step, Id.new_of_lt hsafe]
      exact ⟨_, Or.inr ⟨hsafe, hstep⟩, by rw [hc, ← hi]⟩

/-! ## Calls that are not safe -/

namespace Ids

variable {s s' : Ids}

/-- Once the counter has gone back, an id is handed out again. -/
theorem Inv.reissued (hI : s.Inv) {bs : List Alloc} (ha : s'.allocs = s.allocs ++ bs) (hi : s'.issued = s.issued)
    (hlt : s'.preNextGlobalId < s.preNextGlobalId) : ∃ ds m, Machine.run Ids.step s' ds = .ok m ∧ ¬ m.Sound := by
  have hbound := hI.bound
  obtain ⟨k, i, a, hk, hia, hx⟩ := hI.cover (s'.preNextGlobalId + 1) (Nat.succ_pos _) hlt
  obtain ⟨hklt, -⟩ := List.getElem?_eq_some_iff.mp hk
  have hk' : s'.allocs[k]? = some a := by rw [ha, List.getElem?_append_left hklt, hk]
  -- the id is handed out by its allocation first
  obtain ⟨ds, m, hrun, hma, hmp, hmi⟩ : ∃ ds m, Machine.run Ids.step s' ds = .ok m ∧ m.allocs = s'.allocs ∧
      m.preNextGlobalId = s'.preNextGlobalId ∧ (s'.preNextGlobalId + 1, k, i) ∈ m.issued := by
    cases a with
    | id y =>
      obtain rfl : i = 0 := Nat.lt_one_iff.mp hia
      refine ⟨[], s', rfl, rfl, rfl, ?_⟩
      rw [hi, hx]
      exact hI.single k y hk
    | range r =>
      have hlen : r.len < 2 ^ 64 := Nat.mod_lt _ (by decide)
      have hi64 : i < 2 ^ 64 := lt_trans hia hlen
      have hget : r.get ⟨i, hi64⟩ = some (s'.preNextGlobalId + 1) := by
        have hx' : s'.preNextGlobalId + 1 = r.start + i := hx
        unfold IdRange.get
        rw [if_pos (by simp only; omega), hx']
      refine ⟨[.get k ⟨i, hi64⟩], { s' with issued := s'.issued ++ [(s'.preNextGlobalId + 1, k, i)] }, ?_,
        rfl, rfl, ?_⟩
      · rw [Machine.run_single]
        simp only [Ids.step, hk', hget]
      · simp
  -- and by the counter again
  have hnew : m.step .new = .ok ⟨m.preNextGlobalId + 1, m.allocs ++ [.id (m.preNextGlobalId + 1)],
      m.issued ++ [(m.preNextGlobalId + 1, m.allocs.length, 0)]⟩ := by
    have hlt' : m.preNextGlobalId + 1 < 2 ^ 64 := by omega
    simp only [Ids.step, Id.new_of_lt hlt']
  refine ⟨ds ++ [.new], _, Machine.run_append.mpr ⟨m, hrun, Machine.run_single.mpr hnew⟩, fun hS => ?_⟩
  have heq := hS.unique (m.preNextGlobalId + 1) (k, i) (m.allocs.length, 0)
      (List.mem_append_left _ (hmp ▸ hmi)) (by simp)
  have hkm : k = m.allocs.length := congrArg Prod.fst heq
  rw [hkm, hma, ha, List.length_append] at hklt
  omega

/-- A call that is not safe can be followed by calls that break uniqueness, or breaks it itself. -/
theorem Inv.breaks (hI : s.Inv) {c : IdCall} (hc : ¬ s.Safe c) : ∃ ds m, Machine.run Ids.step s (c :: ds) = .ok m ∧
    ¬ m.Sound := by
  have hbound := hI.bound
  have hthen : ∀ (s' : Ids) (bs : List Alloc), s.step c = .ok s' → s'.allocs = s.allocs ++ bs →
      s'.issued = s.issued →
      s'.preNextGlobalId < s.preNextGlobalId → ∃ ds m, Machine.run Ids.step s (c :: ds) = .ok m ∧ ¬ m.Sound := by
    intro s' bs hst ha hi hlt
    obtain ⟨ds, m, hrun, hm⟩ := hI.reissued ha hi hlt
    exact ⟨ds, m, Machine.run_cons.mpr ⟨s', hst, hrun⟩, hm⟩
  cases c with
  | new =>
    have hpre : s.preNextGlobalId + 1 = 2 ^ 64 := by
      have : ¬ s.preNextGlobalId + 1 < 2 ^ 64 := hc
      omega
    have hnew : Id.new s.preNextGlobalId = (0, none) := by
      unfold Id.new newId
      rw [hpre]
      rfl
    exact hthen { s with preNextGlobalId := 0 } [] (by simp only [Ids.step, hnew])
      (List.append_nil _).symm rfl (by show 0 < _; omega)
  | newRange len =>
    have hpre : 2 ^ 64 ≤ s.preNextGlobalId + len.val := not_lt.mp hc
    have hlen := len.isLt
    have hfst : (IdRange.new s.preNextGlobalId len).1 = s.preNextGlobalId + len.val - 2 ^ 64 := by
      unfold IdRange.new
      rw [if_neg (by omega)]
      show (s.preNextGlobalId + len.val) % 2 ^ 64 = _
      omega
    have hback : (IdRange.new s.preNextGlobalId len).1 < s.preNextGlobalId := by omega
    generalize hnew : IdRange.new s.preNextGlobalId len = res at hback
    obtain ⟨pre, r⟩ := res
    cases r with
    | none =>
      exact hthen { s with preNextGlobalId := pre } [] (by simp only [Ids.step, hnew])
        (List.append_nil _).symm rfl hback
    | some r =>
      exact hthen { s with preNextGlobalId := pre, allocs := s.allocs ++ [.range r] } [.range r]
        (by simp only [Ids.step, hnew]) rfl rfl hback
  | get k index =>
    obtain ⟨r, hk, hno⟩ : ∃ r, s.allocs[k]? = some (.range r) ∧
        ¬ (index.val < r.len ∨ 2 ^ 64 ≤ r.start + index.val) := by
      simpa [Safe] using hc
    rw [not_or] at hno
    have hget : r.get index = some (r.start + index.val) := by
      unfold IdRange.get
      rw [if_pos (by omega)]
    refine ⟨[], { s with issued := s.issued ++ [(r.start + index.val, k, index.val)] }, ?_, fun hS => ?_⟩
    · rw [Machine.run_single]
      simp only [Ids.step, hk, hget]
    · exact hno.1 (hS.inRange (r.start + index.val) k index.val r (by simp) hk)

theorem inv_of_safe {cs : List IdCall} (h : Machine.run step install cs = .ok s)
    (hs : Machine.Along step Safe install cs) : s.Inv :=
  hs.inv (fun _ _ _ hI hc hst => hI.step hc hst) h inv_install

/-- **Ids are unique exactly while the calls are safe.**  In every run of safe calls no id is handed out twice
and no index is past the end of its range.  A call that is not safe is one step from an index past the end, or
some calls after it hand out an id again. -/
theorem ids_unique_while_safe {cs : List IdCall} (h : Machine.run step install cs = .ok s)
    (hs : Machine.Along step Safe install cs) :
    s.Sound ∧ ∀ c, ¬ s.Safe c → ∃ ds m, Machine.run step s (c :: ds) = .ok m ∧ ¬ m.Sound :=
  ⟨(inv_of_safe h hs).sound, fun _ hc => (inv_of_safe h hs).breaks hc⟩

/-- Two ids, a range of two and its second element. -/
def mixedCalls : List IdCall := [.new, .new, .newRange 2, .get 2 1]

theorem mixed_safe : Machine.Along step Safe install mixedCalls := by
  refine ⟨show 0 + 1 < 2 ^ 64 by decide, fun m hm => ?_⟩
  cases hm
  refine ⟨show 1 + 1 < 2 ^ 64 by decide, fun m hm => ?_⟩
  cases hm
  refine ⟨show 2 + 2 < 2 ^ 64 by decide, fun m hm => ?_⟩
  have hrange := IdRange.new_of_lt (show 0 < (2 : Usize).val by decide)
      (show 2 + (2 : Usize).val < 2 ^ 64 by decide)
  have hm' : step ⟨2, [.id 1, .id 2], [(1, 0, 0), (2, 1, 0)]⟩ (.newRange 2) = .ok m := hm
  simp only [step, hrange] at hm'
  cases hm'
  refine ⟨fun r hr => Or.inl ?_, fun m hm => trivial⟩
  cases hr
  decide

theorem ids_unique_while_safe_mixed : ∃ s, Machine.run step install mixedCalls = .ok s ∧
    s.issued = [(1, 0, 0), (2, 1, 0), (4, 2, 1)] ∧ s.Sound := by
  obtain ⟨s, hs, hq⟩ : ∃ s, Machine.run step install mixedCalls = .ok s ∧
      s.issued = [(1, 0, 0), (2, 1, 0), (4, 2, 1)] := Machine.exists_of_run rfl
  exact ⟨s, hs, hq, (ids_unique_while_safe hs mixed_safe).1⟩

/-- The index after the last of a range of one is the next id. -/
def pastEndCalls : List IdCall := [.newRange 1, .new, .get 0 1]

theorem pastEnd_run :
    Machine.run step install pastEndCalls = .ok ⟨2, [.range ⟨1, 1⟩, .id 2], [(2, 1, 0), (2, 0, 1)]⟩ := by
  have hrange : IdRange.new 0 1 = (1, some ⟨1, 1⟩) := by simp [IdRange.new]
  have h₁ : step install (.newRange 1) = .ok ⟨1, [.range ⟨1, 1⟩], []⟩ := by
    simp only [step, install, hrange, List.nil_append]
  have h₂ : step ⟨1, [.range ⟨1, 1⟩], []⟩ .new = .ok ⟨2, [.range ⟨1, 1⟩, .id 2], [(2, 1, 0)]⟩ := rfl
  have h₃ : step ⟨2, [.range ⟨1, 1⟩, .id 2], [(2, 1, 0)]⟩ (.get 0 1) =
      .ok ⟨2, [.range ⟨1, 1⟩, .id 2], [(2, 1, 0), (2, 0, 1)]⟩ := rfl
  exact Machine.run_cons.mpr ⟨_, h₁, Machine.run_cons.mpr ⟨_, h₂, Machine.run_single.mpr h₃⟩⟩

/-- The counter wraps in a range, which panics, and the next id is the first one again. -/
def wrapCalls : List IdCall := [.new, .newRange ⟨2 ^ 64 - 1, by decide⟩, .new]

theorem wrap_run : Machine.run step install wrapCalls = .ok ⟨1, [.id 1, .id 1], [(1, 0, 0), (1, 1, 0)]⟩ := by
  have hwrap : IdRange.new 1 ⟨2 ^ 64 - 1, by decide⟩ = (0, none) := by simp [IdRange.new]
  have h₁ : step install .new = .ok ⟨1, [.id 1], [(1, 0, 0)]⟩ := rfl
  have h₂ : step ⟨1, [.id 1], [(1, 0, 0)]⟩ (.newRange ⟨2 ^ 64 - 1, by decide⟩) =
      .ok ⟨0, [.id 1], [(1, 0, 0)]⟩ := by
    simp only [step, hwrap]
  have h₃ : step ⟨0, [.id 1], [(1, 0, 0)]⟩ .new = .ok ⟨1, [.id 1, .id 1], [(1, 0, 0), (1, 1, 0)]⟩ := rfl
  exact Machine.run_cons.mpr ⟨_, h₁, Machine.run_cons.mpr ⟨_, h₂, Machine.run_single.mpr h₃⟩⟩

theorem ids_handed_out_twice :
    (∃ s, Machine.run step install pastEndCalls = .ok s ∧ s.issued = [(2, 1, 0), (2, 0, 1)] ∧ ¬ s.Sound) ∧
    ∃ s, Machine.run step install wrapCalls = .ok s ∧ s.issued = [(1, 0, 0), (1, 1, 0)] ∧ ¬ s.Sound := by
  refine ⟨⟨_, pastEnd_run, rfl, fun hS => ?_⟩, ⟨_, wrap_run, rfl, fun hS => ?_⟩⟩
  · cases hS.unique 2 (1, 0) (0, 1) (by simp) (by simp)
  · cases hS.unique 1 (0, 0) (1, 0) (by simp) (by simp)

end Ids

end Refault
