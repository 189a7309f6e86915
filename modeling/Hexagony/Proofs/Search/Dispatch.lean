import Mathlib.Algebra.Ring.Nat
import Mathlib.Data.List.Perm.Basic
import Mathlib.Tactic.Common
import Hexagony.Proofs.Listing
import Hexagony.Search.Dispatch

namespace Hexagony

namespace Worker
variable {ε : Type}

def rest : Worker ε → List ε
  | ready | stopped => []
  | working rest => rest

def actions : Worker ε → Nat
  | stopped => 0
  | ready => 1
  | working rest => rest.length + 2

end Worker

namespace Pool
variable {ε : Type}

def untaken (pool : Pool ε) : List (List ε) := pool.items.toList.drop pool.next

def handedOut (pool : Pool ε) : List Nat :=
  (List.range (min pool.next pool.items.size)).reverse

def outstanding (pool : Pool ε) : List ε :=
  pool.workers.toList.flatMap Worker.rest ++ pool.untaken.flatten

def demand (pool : Pool ε) : Nat := (pool.untaken.map (·.length + 2)).sum

def pending (pool : Pool ε) : Nat := (pool.workers.toList.map Worker.actions).sum + pool.demand

-- What an action of a worker that has not stopped does: nothing is lost, and there is one action
-- less to take.
structure Changes (pool : Pool ε) (index : Nat) (old new : Worker ε) (after : Pool ε) : Prop where
  found : pool.workers[index]? = some old
  workers : after.workers = pool.workers.setIfInBounds index new
  items : after.items = pool.items
  effects : (after.effects ++ (new.rest ++ after.untaken.flatten)).Perm
    (pool.effects ++ (old.rest ++ pool.untaken.flatten))
  actions : new.actions + after.demand + 1 = old.actions + pool.demand
  exhausted : new = .stopped ∨ pool.untaken = [] → after.untaken = []
  given : pool.given = pool.handedOut → after.given = after.handedOut

section Act
variable {pool after : Pool ε} {index : Nat} {old new : Worker ε}

theorem untaken_cons {item : List ε} (found : pool.items[pool.next]? = some item) :
    pool.untaken = item :: pool.items.toList.drop (pool.next + 1) := by
  obtain ⟨bound, rfl⟩ := Array.getElem?_eq_some_iff.mp found
  rw [untaken, List.drop_eq_getElem_cons (by simpa using bound)]
  rfl

theorem untaken_nil (none : pool.items[pool.next]? = none) :
    pool.untaken = [] ∧ pool.items.toList.drop (pool.next + 1) = [] := by
  have past : pool.items.toList.length ≤ pool.next := by simpa using none
  exact ⟨List.drop_eq_nil_of_le past, List.drop_eq_nil_of_le (by omega)⟩

theorem handedOut_past (none : pool.items[pool.next]? = none) :
    ({pool with next := pool.next + 1} : Pool ε).handedOut = pool.handedOut := by
  have past : pool.items.size ≤ pool.next := by simpa using none
  simp only [handedOut]
  rw [Nat.min_eq_right past, Nat.min_eq_right (by omega)]

theorem handedOut_next {item : List ε} (found : pool.items[pool.next]? = some item) :
    ({pool with next := pool.next + 1} : Pool ε).handedOut = pool.next :: pool.handedOut := by
  have inside : pool.next < pool.items.size := (Array.getElem?_eq_some_iff.mp found).1
  simp only [handedOut]
  rw [Nat.min_eq_left (by omega), Nat.min_eq_left (by omega), List.range_succ,
    List.reverse_append]
  rfl

theorem act_changes (pool : Pool ε) (index : Nat) :
    (pool.act index = pool ∧ ∀ worker, pool.workers[index]? = some worker → worker = .stopped) ∨
      ∃ old new, Changes pool index old new (pool.act index) := by
  unfold act
  cases present : pool.workers[index]? with
  | none => exact .inl ⟨rfl, by simp⟩
  | some worker =>
    cases worker with
    | stopped => exact .inl ⟨rfl, by simp⟩
    | ready =>
      right
      dsimp only
      cases found : pool.items[pool.next]? with
      | none =>
        obtain ⟨before, after⟩ := untaken_nil found
        refine ⟨.ready, .stopped, present, rfl, rfl, ?_, ?_, fun _ => after, fun handed => ?_⟩
        · rw [before]
          simp [untaken, setWorker, Worker.rest, after]
        · simp only [demand, before]
          simp [untaken, setWorker, Worker.actions, after]
        · exact handed.trans (handedOut_past found).symm
      | some item =>
        have before := untaken_cons found
        refine ⟨.ready, .working item, present, rfl, rfl, ?_, ?_, ?_, fun handed => ?_⟩
        · rw [before]
          exact .refl _
        · simp only [demand, before, List.map_cons, List.sum_cons, Worker.actions]
          simp only [untaken, setWorker]
          omega
        · simp [before]
        · exact (congrArg (pool.next :: ·) handed).trans (handedOut_next found).symm
    | working rest =>
      right
      cases rest with
      | nil =>
        refine ⟨.working [], .ready, present, rfl, rfl, .refl _, ?_, ?_, id⟩
        · simp only [demand, untaken, setWorker, Worker.actions, List.length_nil]
          omega
        · simp [untaken, setWorker]
      | cons effect rest =>
        refine ⟨.working (effect :: rest), .working rest, present, rfl, rfl, ?_, ?_, ?_, id⟩
        · simp only [untaken, setWorker, Worker.rest, List.cons_append]
          exact List.perm_middle.symm
        · simp only [demand, untaken, setWorker, Worker.actions, List.length_cons]
          omega
        · simp [untaken, setWorker]

theorem Changes.workers_list (changes : Changes pool index old new after) :
    after.workers.toList = pool.workers.toList.set index new ∧
      pool.workers.toList[index]? = some old := by
  rw [changes.workers, Array.toList_setIfInBounds, Array.getElem?_toList]
  exact ⟨rfl, changes.found⟩

theorem Changes.accounts (changes : Changes pool index old new after) :
    (after.effects ++ after.outstanding).Perm (pool.effects ++ pool.outstanding) := by
  classical
  obtain ⟨workers, found⟩ := changes.workers_list
  have replaced := Listing.flatMap_set new Worker.rest found
  have brought := changes.effects
  rw [List.perm_iff_count] at replaced brought ⊢
  intro effect
  have replaced := replaced effect
  have brought := brought effect
  simp only [outstanding, workers, List.count_append] at replaced brought ⊢
  omega

theorem Changes.pending_lt (changes : Changes pool index old new after) :
    after.pending < pool.pending := by
  obtain ⟨workers, found⟩ := changes.workers_list
  have replaced := Listing.sum_set new Worker.actions found
  have fewer := changes.actions
  simp only [pending, workers]
  omega

end Act

-- All work is accounted for, there is somebody to do it, nobody stops while items are left, and the
-- items given out are those that the counter has passed.
structure Sound (items : List (List ε)) (pool : Pool ε) : Prop where
  holds : pool.items.toList = items
  accounts : (pool.effects ++ pool.outstanding).Perm items.flatten
  staffed : pool.workers.toList = [] → items = []
  exhausted : .stopped ∈ pool.workers.toList → pool.untaken = []
  given : pool.given = pool.handedOut

section Run
variable {items : List (List ε)} {pool : Pool ε}

theorem start_sound {threads : Nat} (some : 0 < threads) (items : List (List ε)) :
    Sound items (start threads items) where
  holds := rfl
  accounts := by
    have idle (count : Nat) :
        (List.replicate count (Worker.ready : Worker ε)).flatMap Worker.rest = [] :=
      List.flatMap_eq_nil_iff.mpr fun worker member => by rw [List.eq_of_mem_replicate member]; rfl
    simp [start, outstanding, untaken, idle]
  staffed := by
    intro nobody
    simp only [start, Array.toList_replicate, List.replicate_eq_nil_iff] at nobody
    exact List.length_eq_zero_iff.mp (by omega)
  exhausted := by
    intro member
    simp [start] at member
  given := by simp [start, handedOut]

theorem sum_length_add_two (items : List (List ε)) :
    (items.map (·.length + 2)).sum = items.flatten.length + 2 * items.length := by
  induction items with
  | nil => rfl
  | cons item rest ih =>
    rw [List.map_cons, List.sum_cons, ih, List.flatten_cons, List.length_append, List.length_cons]
    omega

theorem start_pending (threads : Nat) (items : List (List ε)) :
    (start threads items).pending = (start threads items).actionCount := by
  have needed := sum_length_add_two items
  simp only [start, pending, actionCount, demand, untaken, List.drop_zero, needed,
    Array.toList_replicate, List.map_replicate, Worker.actions, List.sum_replicate_nat,
    Array.size_replicate, List.size_toArray]
  omega

theorem act_sound (sound : Sound items pool) (index : Nat) : Sound items (pool.act index) := by
  rcases act_changes pool index with ⟨same, _⟩ | ⟨old, new, changes⟩
  · rw [same]
    exact sound
  · obtain ⟨workers, _⟩ := changes.workers_list
    refine ⟨by rw [changes.items, sound.holds], changes.accounts.trans sound.accounts, ?_, ?_,
      changes.given sound.given⟩
    · rw [workers, List.set_eq_nil_iff]
      exact sound.staffed
    · rw [workers]
      intro stopped
      refine changes.exhausted ?_
      rcases List.mem_or_eq_of_mem_set stopped with before | now
      · exact .inr (sound.exhausted before)
      · exact .inl now.symm

theorem follow_sound (sound : Sound items pool) (schedule : List Nat) :
    Sound items (pool.follow schedule) := by
  induction schedule generalizing pool with
  | nil => exact sound
  | cons index rest ih => exact ih (act_sound sound index)

theorem follow_pending (pool : Pool ε) (schedule : List Nat) :
    (pool.follow schedule = pool ∧
        ∀ index ∈ schedule, ∀ worker, pool.workers[index]? = some worker → worker = .stopped) ∨
      (pool.follow schedule).pending < pool.pending := by
  induction schedule generalizing pool with
  | nil => exact .inl ⟨rfl, by simp⟩
  | cons index rest ih =>
    have split : pool.follow (index :: rest) = (pool.act index).follow rest := rfl
    rw [split]
    rcases act_changes pool index with ⟨same, stopped⟩ | ⟨old, new, changes⟩
    · rw [same]
      rcases ih pool with ⟨still, others⟩ | less
      · exact .inl ⟨still, List.forall_mem_cons.mpr ⟨stopped, others⟩⟩
      · exact .inr less
    · have less := changes.pending_lt
      rcases ih (pool.act index) with ⟨still, _⟩ | lesser
      · rw [still]
        exact .inr less
      · exact .inr (Nat.lt_trans lesser less)

theorem finished_iff : pool.finished = true ↔ ∀ worker ∈ pool.workers.toList, worker = .stopped := by
  rw [finished, ← Array.all_toList, List.all_eq_true]
  refine forall_congr' fun worker => forall_congr' fun _ => ?_
  cases worker <;> simp

theorem round_pending (busy : ¬pool.finished = true) : pool.round.pending < pool.pending := by
  rcases follow_pending pool (List.range pool.workers.size) with ⟨_, stopped⟩ | less
  · refine absurd (finished_iff.mpr fun worker member => ?_) busy
    obtain ⟨index, inside, rfl⟩ := List.mem_iff_getElem.mp member
    have bound : index < pool.workers.size := by simpa using inside
    exact stopped index (List.mem_range.mpr bound) _ (by simp [bound])
  · exact less

theorem rounds_finished {fuel : Nat} (enough : pool.pending ≤ fuel) :
    (rounds fuel pool).finished = true := by
  induction fuel generalizing pool with
  | zero =>
    rw [rounds]
    cases busy : pool.finished with
    | true => rfl
    | false =>
      have unfinished : ¬pool.finished = true := by simp [busy]
      have less := round_pending unfinished
      omega
  | succ fuel ih =>
    rw [rounds]
    split
    · assumption
    · rename_i busy
      have less := round_pending busy
      exact ih (by omega)

theorem rounds_eq_follow (fuel : Nat) (pool : Pool ε) :
    ∃ schedule, rounds fuel pool = pool.follow schedule := by
  induction fuel generalizing pool with
  | zero => exact ⟨[], rfl⟩
  | succ fuel ih =>
    rw [rounds]
    split
    · exact ⟨[], rfl⟩
    · obtain ⟨rest, same⟩ := ih pool.round
      refine ⟨List.range pool.workers.size ++ rest, ?_⟩
      rw [same, follow, follow, List.foldl_append]
      rfl

-- However far the workers have come, they can be brought to their end.
theorem exists_finish (pool : Pool ε) : ∃ schedule, (pool.follow schedule).finished = true := by
  obtain ⟨schedule, same⟩ := rounds_eq_follow pool.pending pool
  exact ⟨schedule, same ▸ rounds_finished (Nat.le_refl _)⟩

theorem untaken_of_finished (sound : Sound items pool) (finished : pool.finished = true) :
    pool.untaken = [] := by
  have stopped := finished_iff.mp finished
  cases workers : pool.workers.toList with
  | nil => rw [untaken, sound.holds, sound.staffed workers, List.drop_nil]
  | cons worker others =>
    rw [workers] at stopped
    refine sound.exhausted ?_
    rw [workers, stopped worker List.mem_cons_self]
    exact List.mem_cons_self

theorem effects_of_finished (sound : Sound items pool) (finished : pool.finished = true) :
    pool.effects.Perm items.flatten := by
  have stopped := finished_iff.mp finished
  have taken := untaken_of_finished sound finished
  have idle : pool.workers.toList.flatMap Worker.rest = [] :=
    List.flatMap_eq_nil_iff.mpr fun worker member => by rw [stopped worker member]; rfl
  have accounts := sound.accounts
  rwa [outstanding, taken, idle, List.flatten_nil, List.append_nil, List.append_nil] at accounts

theorem given_of_finished (sound : Sound items pool) (finished : pool.finished = true) :
    pool.given = (List.range items.length).reverse := by
  have size : pool.items.size = items.length := by
    rw [← sound.holds, Array.length_toList]
  have passed : items.length ≤ pool.next := by
    have taken := untaken_of_finished sound finished
    rwa [untaken, sound.holds, List.drop_eq_nil_iff] at taken
  rw [sound.given, handedOut, size, Nat.min_eq_right passed]

theorem given_count (sound : Sound items pool) (finished : pool.finished = true) (index : Nat) :
    pool.given.count index = if index < items.length then 1 else 0 := by
  rw [given_of_finished sound finished, List.count_reverse, List.count_range]

end Run
end Pool

theorem ThreadMode.resolve_pool {cores threads : Nat} {mode : ThreadMode}
    (resolved : mode.resolve cores = .pool threads) : 0 < threads := by
  have several (count : Nat) (resolved : ofCount count = .pool threads) : 0 < threads := by
    unfold ofCount at resolved
    split at resolved
    · cases resolved
    · cases resolved
      omega
  cases mode with
  | sequential => cases resolved
  | pool count => exact several count resolved
  | auto => exact several cores resolved

-- The orders in which the effects of all items may be brought about: with a pool, that of any
-- schedule by which all workers come to their end.
def Dispatched {ε : Type} (cores : Nat) (mode : ThreadMode) (items : List (List ε))
    (effects : List ε) : Prop :=
  match mode.resolve cores with
  | .pool threads => ∃ schedule,
    let pool := (Pool.start threads items).follow schedule
    pool.finished = true ∧ effects = pool.effects.reverse
  | .sequential | .auto => effects = items.flatten

section Dispatch
variable {ε : Type} {cores : Nat} {mode : ThreadMode} {items : List (List ε)} {effects : List ε}

theorem dispatch_dispatched (cores : Nat) (mode : ThreadMode) (items : List (List ε)) :
    Dispatched cores mode items (dispatch cores mode items) := by
  unfold Dispatched dispatch
  cases mode.resolve cores with
  | sequential => rfl
  | auto => rfl
  | pool threads =>
    have finished : (Pool.start threads items).complete.finished = true :=
      Pool.rounds_finished (Nat.le_of_eq (Pool.start_pending threads items))
    obtain ⟨schedule, same⟩ := Pool.rounds_eq_follow _ (Pool.start threads items)
    exact ⟨schedule, same ▸ finished, congrArg (·.effects.reverse) same⟩

theorem Dispatched.perm (dispatched : Dispatched cores mode items effects) :
    effects.Perm items.flatten := by
  unfold Dispatched at dispatched
  cases resolved : mode.resolve cores with
  | sequential | auto =>
    rw [resolved] at dispatched
    exact .of_eq dispatched
  | pool threads =>
    rw [resolved] at dispatched
    obtain ⟨schedule, finished, rfl⟩ := dispatched
    have sound := Pool.start_sound (ThreadMode.resolve_pool resolved) items
    exact (List.reverse_perm _).trans
      (Pool.effects_of_finished (Pool.follow_sound sound schedule) finished)

theorem dispatch_perm (cores : Nat) (mode : ThreadMode) (items : List (List ε)) :
    (dispatch cores mode items).Perm items.flatten :=
  (dispatch_dispatched cores mode items).perm

end Dispatch
end Hexagony
