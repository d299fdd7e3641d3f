import FlashStorage.Lock.Contention
import Mathlib.Algebra.BigOperators.Group.List.Basic
import Mathlib.Algebra.GroupWithZero.Nat
import Mathlib.Data.List.Count

/-!
# Increments under a contended lock

Threads that increment a counter under a spin lock are interleaved in any way, and
attempts on the free lock may fail.  Every atomic step leaves a thread outside, lets
one in while the lock is free, or brings the one that is inside closer to giving the
lock back.  So the flag is set exactly while one thread is inside, what that thread
has read of the counter stays true until it writes, and the counter and the
increments still to come add up to the same number all the time.  From every state
that can be reached all threads can still finish.
-/

namespace FlashStorage

/-- The increments of the counter that a thread has yet to make. -/
def Thread.owed (thread : Thread) : Nat :=
  if thread.stage = .releasing then thread.rounds - 1 else thread.rounds

/-- A bound on the steps to the end of a round for a thread that nobody is in the way
of. -/
def Stage.work : Stage → Nat
  | .watching => 4
  | .attempting => 3
  | .reading => 2
  | .writing _ => 1
  | .releasing => 0

def Thread.work (thread : Thread) : Nat :=
  5 * thread.rounds + thread.stage.work

theorem Thread.owed_of_outside {thread : Thread}
    (houtside : thread.stage.isInside = false) :
    thread.owed = thread.rounds := by
  unfold Thread.owed
  rw [if_neg]
  intro hreleasing
  rw [hreleasing] at houtside
  cases houtside

namespace Contention

/-- How many threads are between taking the lock and giving it back. -/
def insiders (threads : List Thread) : Nat :=
  threads.countP (fun thread => thread.stage.isInside)

def owed (threads : List Thread) : Nat :=
  (threads.map Thread.owed).sum

def work (threads : List Thread) : Nat :=
  (threads.map Thread.work).sum

section

variable {lock lockAfter : SpinLock} {counter counterAfter rounds seen : Nat}
  {thread moved : Thread} {before after : List Thread}

/-! ## One thread among others -/

theorem insiders_append_cons (before after : List Thread) (thread : Thread) :
    insiders (before ++ thread :: after) =
      insiders before + insiders after + thread.stage.isInside.toNat := by
  simp only [insiders, List.countP_append, List.countP_cons]
  cases thread.stage.isInside
  · rfl
  · rfl

theorem owed_append_cons (before after : List Thread) (thread : Thread) :
    owed (before ++ thread :: after) =
      owed before + owed after + thread.owed := by
  simp only [owed, List.map_append, List.map_cons, List.sum_append,
    List.sum_cons]
  omega

theorem work_append_cons (before after : List Thread) (thread : Thread) :
    work (before ++ thread :: after) =
      work before + work after + thread.work := by
  simp only [work, List.map_append, List.map_cons, List.sum_append,
    List.sum_cons]
  omega

theorem insiders_eq_zero_iff {threads : List Thread} :
    insiders threads = 0 ↔
      ∀ thread ∈ threads, thread.stage.isInside = false := by
  simp [insiders, List.countP_eq_zero]

/-! ## One atomic step -/

/-- What a thread can make of the lock, the counter and itself in one step. -/
inductive Move (lock : SpinLock) (counter : Nat) (thread : Thread) :
    SpinLock → Nat → Thread → Prop where
  | waits {next : Stage} (hfrom : thread.stage.isInside = false)
      (hnext : next.isInside = false) :
      Move lock counter thread lock counter { thread with stage := next }
  | enters (hfree : lock.held = false)
      (hfrom : thread.stage.isInside = false) :
      Move lock counter thread ⟨true⟩ counter
        { thread with stage := .reading }
  | reads (hfrom : thread.stage = .reading) :
      Move lock counter thread lock counter
        { thread with stage := .writing counter }
  | writes {seen : Nat} (hfrom : thread.stage = .writing seen) :
      Move lock counter thread lock (seen + 1)
        { thread with stage := .releasing }
  | leaves (hfrom : thread.stage = .releasing) :
      Move lock counter thread SpinLock.free counter
        ⟨thread.rounds - 1, .attempting⟩

theorem advance_move (spurious : Bool) (lock : SpinLock) (counter : Nat)
    (thread : Thread) :
    Move lock counter thread (advance spurious lock counter thread).1
      (advance spurious lock counter thread).2.1
      (advance spurious lock counter thread).2.2 := by
  obtain ⟨held⟩ := lock
  obtain ⟨rounds, stage⟩ := thread
  cases stage with
  | attempting =>
      cases spurious with
      | true => exact .waits rfl rfl
      | false =>
          cases held with
          | true => exact .waits rfl rfl
          | false => exact .enters rfl rfl
  | watching =>
      cases held with
      | true => exact .waits rfl rfl
      | false => exact .waits rfl rfl
  | reading => exact .reads rfl
  | writing seen => exact .writes rfl
  | releasing => exact .leaves rfl

theorem step_append_cons (hrounds : 0 < thread.rounds) (spurious : Bool) :
    step ⟨lock, counter, before ++ thread :: after⟩ before.length spurious =
      ⟨(advance spurious lock counter thread).1,
        (advance spurious lock counter thread).2.1,
        before ++ (advance spurious lock counter thread).2.2 :: after⟩ := by
  have hfound : (before ++ thread :: after)[before.length]? = some thread := by
    simp
  unfold step
  simp only [hfound]
  rw [if_neg (Nat.ne_of_gt hrounds)]
  simp

/-- A step changes nothing, or is a move of one thread that has rounds left. -/
theorem step_cases (now : Contention) (index : Nat) (spurious : Bool) :
    now.step index spurious = now ∨
      ∃ before thread after lock counter moved,
        now.threads = before ++ thread :: after ∧ 0 < thread.rounds ∧
          Move now.lock now.counter thread lock counter moved ∧
          now.step index spurious =
            ⟨lock, counter, before ++ moved :: after⟩ := by
  obtain ⟨lock, counter, threads⟩ := now
  by_cases hindex : index < threads.length
  · have hsplit : threads =
        threads.take index ++ threads[index] :: threads.drop (index + 1) := by
      rw [List.getElem_cons_drop, List.take_append_drop]
    have hlength : (threads.take index).length = index := by
      rw [List.length_take]
      omega
    by_cases hrounds : threads[index].rounds = 0
    · left
      simp [step, hindex, hrounds]
    · right
      have hpos : 0 < threads[index].rounds := Nat.pos_of_ne_zero hrounds
      have hstep : step
          ⟨lock, counter,
            threads.take index ++ threads[index] :: threads.drop (index + 1)⟩
          (threads.take index).length spurious = _ :=
        step_append_cons hpos spurious
      rw [← hsplit, hlength] at hstep
      exact ⟨_, _, _, _, _, _, hsplit, hpos, advance_move _ _ _ _, hstep⟩
  · left
    simp [step, List.getElem?_eq_none (Nat.le_of_not_lt hindex)]

/-! ## What every step keeps -/

/-- One thread is inside while the flag is set and none while it is clear.  What a
thread is about to write back is one more than the counter, and no increment is lost
from the total. -/
structure Serial (total : Nat) (now : Contention) : Prop where
  insiders_eq : insiders now.threads = now.lock.held.toNat
  total_eq : now.counter + owed now.threads = total
  seen_eq : ∀ thread ∈ now.threads, ∀ seen,
    thread.stage = .writing seen → seen = now.counter
  rounds_pos : ∀ thread ∈ now.threads,
    thread.stage.isInside = true → 0 < thread.rounds

theorem serial_start (threads rounds : Nat) :
    Serial (threads * rounds) (start SpinLock.free threads rounds) where
  insiders_eq := by
    rw [insiders_eq_zero_iff.mpr]
    · rfl
    · intro thread hmem
      rw [List.eq_of_mem_replicate hmem]
      rfl
  total_eq := by
    simp [start, owed, Thread.owed]
  seen_eq := by
    intro thread hmem seen hwriting
    rw [List.eq_of_mem_replicate hmem] at hwriting
    cases hwriting
  rounds_pos := by
    intro thread hmem hinside
    rw [List.eq_of_mem_replicate hmem] at hinside
    cases hinside

theorem Serial.held_of_inside {total : Nat}
    (hserial : Serial total ⟨lock, counter, before ++ thread :: after⟩)
    (hinside : thread.stage.isInside = true) :
    lock.held = true ∧ insiders before = 0 ∧ insiders after = 0 := by
  have hinsiders := hserial.insiders_eq
  simp only [insiders_append_cons, hinside, Bool.toNat_true] at hinsiders
  cases hheld : lock.held with
  | false =>
      rw [hheld, Bool.toNat_false] at hinsiders
      omega
  | true =>
      rw [hheld, Bool.toNat_true] at hinsiders
      exact ⟨rfl, by omega, by omega⟩

/-- One thread, the lock and the counter may change together as long as the books
stay balanced; the counter only under a thread that is inside, because nobody else is
then inside with an older reading of it. -/
theorem Serial.replace {total : Nat}
    (hserial : Serial total ⟨lock, counter, before ++ thread :: after⟩)
    (hinsiders : moved.stage.isInside.toNat + lock.held.toNat =
      thread.stage.isInside.toNat + lockAfter.held.toNat)
    (howed : counterAfter + moved.owed = counter + thread.owed)
    (hcounter : thread.stage.isInside = true ∨ counterAfter = counter)
    (hseen : ∀ seen, moved.stage = .writing seen → seen = counterAfter)
    (hpos : moved.stage.isInside = true → 0 < moved.rounds) :
    Serial total ⟨lockAfter, counterAfter, before ++ moved :: after⟩ := by
  have hcount := hserial.insiders_eq
  have htotal := hserial.total_eq
  have hseenAll := hserial.seen_eq
  have hposAll := hserial.rounds_pos
  simp only [insiders_append_cons] at hcount
  simp only [owed_append_cons] at htotal
  simp only [List.forall_mem_append, List.forall_mem_cons] at hseenAll hposAll
  have hothers : ∀ other, other ∈ before ∨ other ∈ after → ∀ seen,
      other.stage = .writing seen → seen = counterAfter := by
    intro other hmem seen hwriting
    rcases hcounter with hinside | hsame
    · obtain ⟨_, hbefore, hafter⟩ := hserial.held_of_inside hinside
      rw [insiders_eq_zero_iff] at hbefore hafter
      have houtside : other.stage.isInside = false :=
        hmem.elim (hbefore other) (hafter other)
      rw [hwriting] at houtside
      cases houtside
    · rw [hsame]
      exact hmem.elim (fun hleft => hseenAll.1 other hleft seen hwriting)
        (fun hright => hseenAll.2.2 other hright seen hwriting)
  refine ⟨?_, ?_, ?_, ?_⟩
  · simp only [insiders_append_cons]
    omega
  · simp only [owed_append_cons]
    omega
  · simp only [List.forall_mem_append, List.forall_mem_cons]
    exact ⟨fun other hmem => hothers other (.inl hmem), hseen,
      fun other hmem => hothers other (.inr hmem)⟩
  · simp only [List.forall_mem_append, List.forall_mem_cons]
    exact ⟨hposAll.1, hpos, hposAll.2.2⟩

theorem Serial.of_move {total : Nat}
    (hserial : Serial total ⟨lock, counter, before ++ thread :: after⟩)
    (hrounds : 0 < thread.rounds)
    (hmove : Move lock counter thread lockAfter counterAfter moved) :
    Serial total ⟨lockAfter, counterAfter, before ++ moved :: after⟩ := by
  have hmem : thread ∈ before ++ thread :: after := by simp
  cases hmove with
  | @waits next hfrom hnext =>
      apply hserial.replace
      · rw [hfrom, hnext]
      · rw [Thread.owed_of_outside hfrom, Thread.owed_of_outside hnext]
      · exact .inr rfl
      · intro seen hwriting
        change next = .writing seen at hwriting
        rw [hwriting] at hnext
        cases hnext
      · exact fun _ => hrounds
  | enters hfree hfrom =>
      apply hserial.replace
      · rw [hfrom, hfree]
        rfl
      · rw [Thread.owed_of_outside hfrom]
        rfl
      · exact .inr rfl
      · intro seen hwriting
        cases hwriting
      · exact fun _ => hrounds
  | reads hfrom =>
      apply hserial.replace
      · rw [hfrom]
        rfl
      · simp [Thread.owed, hfrom]
      · exact .inr rfl
      · intro seen hwriting
        cases hwriting
        rfl
      · exact fun _ => hrounds
  | @writes seen hfrom =>
      have hcurrent : seen = counter := hserial.seen_eq thread hmem seen hfrom
      apply hserial.replace
      · rw [hfrom]
        rfl
      · simp only [Thread.owed, hfrom, if_true, reduceCtorEq, if_false]
        omega
      · rw [hfrom]
        exact .inl rfl
      · intro later hwriting
        cases hwriting
      · exact fun _ => hrounds
  | leaves hfrom =>
      have hinside : thread.stage.isInside = true := by
        rw [hfrom]
        rfl
      obtain ⟨hheld, _, _⟩ := hserial.held_of_inside hinside
      apply hserial.replace
      · rw [hinside, hheld]
        rfl
      · simp [Thread.owed, hfrom]
      · exact .inr rfl
      · intro seen hwriting
        cases hwriting
      · intro houtside
        cases houtside

theorem Serial.step {total : Nat} {now : Contention}
    (hserial : Serial total now) (index : Nat) (spurious : Bool) :
    Serial total (now.step index spurious) := by
  rcases now.step_cases index spurious with hsame |
    ⟨before, thread, after, lock, counter, moved, hsplit, hrounds, hmove,
      hstep⟩
  · rw [hsame]
    exact hserial
  · obtain ⟨lockBefore, counterBefore, threads⟩ := now
    change threads = _ at hsplit
    subst hsplit
    rw [hstep]
    exact hserial.of_move hrounds hmove

theorem Serial.run {total : Nat} {now : Contention}
    (hserial : Serial total now) (schedule : List (Nat × Bool)) :
    Serial total (now.run schedule) := by
  induction schedule generalizing now with
  | nil => exact hserial
  | cons choice rest ih => exact ih (hserial.step choice.1 choice.2)

/-! ## Nobody is kept from finishing -/

/-- A thread that is inside, or outside a free lock, comes closer to its end with
every attempt that does not fail without a reason. -/
theorem work_advance_lt (hrounds : 0 < thread.rounds)
    (hable : thread.stage.isInside = true ∨ lock.held = false) :
    (advance false lock counter thread).2.2.work < thread.work := by
  obtain ⟨held⟩ := lock
  obtain ⟨rounds, stage⟩ := thread
  change 0 < rounds at hrounds
  change stage.isInside = true ∨ held = false at hable
  cases stage with
  | attempting =>
      have hfree : held = false := hable.resolve_left (by decide)
      subst hfree
      exact Nat.lt_succ_self _
  | watching =>
      have hfree : held = false := hable.resolve_left (by decide)
      subst hfree
      exact Nat.lt_succ_self _
  | reading => exact Nat.lt_succ_self _
  | writing seen => exact Nat.lt_succ_self _
  | releasing =>
      change 5 * (rounds - 1) + 3 < 5 * rounds + 0
      omega

/-- While anyone has rounds left, some step brings the work down: one of the thread
that is inside, or of any thread with rounds left if the lock is free. -/
theorem Serial.exists_step_lt {total : Nat} {now : Contention}
    (hserial : Serial total now) {thread : Thread}
    (hmem : thread ∈ now.threads) (hrounds : 0 < thread.rounds) :
    ∃ index, work (now.step index false).threads < work now.threads := by
  have hchoice : ∃ chosen ∈ now.threads, 0 < chosen.rounds ∧
      (chosen.stage.isInside = true ∨ now.lock.held = false) := by
    cases hheld : now.lock.held with
    | false => exact ⟨thread, hmem, hrounds, .inr rfl⟩
    | true =>
        have hinsiders := hserial.insiders_eq
        rw [hheld, Bool.toNat_true] at hinsiders
        have hsome : 0 < insiders now.threads := by omega
        obtain ⟨inside, hinMem, hinside⟩ := List.countP_pos_iff.mp hsome
        exact ⟨inside, hinMem, hserial.rounds_pos inside hinMem hinside,
          .inl hinside⟩
  obtain ⟨chosen, hchosen, hpos, hable⟩ := hchoice
  obtain ⟨before, after, hsplit⟩ := List.append_of_mem hchosen
  obtain ⟨lock, counter, threads⟩ := now
  change threads = _ at hsplit
  change chosen.stage.isInside = true ∨ lock.held = false at hable
  subst hsplit
  refine ⟨before.length, ?_⟩
  rw [step_append_cons hpos]
  simp only [work_append_cons]
  have hless : (advance false lock counter chosen).2.2.work < chosen.work :=
    work_advance_lt hpos hable
  omega

theorem Serial.exists_finished {total : Nat} {now : Contention}
    (hserial : Serial total now) :
    ∃ more, ∀ thread ∈ (now.run more).threads, thread.rounds = 0 := by
  induction hwork : work now.threads using Nat.strongRecOn
    generalizing now with
  | ind left ih =>
      by_cases hdone : ∀ thread ∈ now.threads, thread.rounds = 0
      · exact ⟨[], hdone⟩
      · obtain ⟨thread, hmem, hrounds⟩ :
            ∃ thread ∈ now.threads, thread.rounds ≠ 0 := by
          simpa using hdone
        obtain ⟨index, hless⟩ :=
          hserial.exists_step_lt hmem (Nat.pos_of_ne_zero hrounds)
        rw [hwork] at hless
        obtain ⟨more, hfinished⟩ :=
          ih _ hless (hserial.step index false) rfl
        exact ⟨(index, false) :: more, hfinished⟩

end

/-! ## Whatever the interleaving -/

theorem owed_eq_zero_of_finished {threads : List Thread}
    (hdone : ∀ thread ∈ threads, thread.rounds = 0) : owed threads = 0 := by
  apply List.sum_eq_zero
  intro value hvalue
  obtain ⟨thread, hmem, rfl⟩ := List.mem_map.mp hvalue
  unfold Thread.owed
  rw [hdone thread hmem]
  split
  · rfl
  · rfl

/-- Threads that have started on a free lock, somewhere on their way. -/
def underWay (threads rounds : Nat) (schedule : List (Nat × Bool)) :
    Contention :=
  (start SpinLock.free threads rounds).run schedule

theorem underWay_append (threads rounds : Nat)
    (schedule more : List (Nat × Bool)) :
    underWay threads rounds (schedule ++ more) =
      (underWay threads rounds schedule).run more :=
  List.foldl_append

/-- Threads that start on a free lock are never inside together, however their atomic
steps are interleaved and whichever attempts fail.  The lock is held exactly while one
of them is inside, and an attempt of anyone else succeeds exactly while none is.  Once
all have finished, which they can from any state, every increment is in the counter
and the lock is free. -/
theorem increments_serialized (threads rounds : Nat)
    (schedule : List (Nat × Bool)) :
    insiders (underWay threads rounds schedule).threads ≤ 1 ∧
      ((underWay threads rounds schedule).lock.held = true ↔
        insiders (underWay threads rounds schedule).threads = 1) ∧
      ((underWay threads rounds schedule).lock.tryLock.1 = true ↔
        ∀ thread ∈ (underWay threads rounds schedule).threads,
          thread.stage.isInside = false) ∧
      ((∀ thread ∈ (underWay threads rounds schedule).threads,
          thread.rounds = 0) →
        (underWay threads rounds schedule).counter = threads * rounds ∧
          (underWay threads rounds schedule).lock.held = false) ∧
      ∃ more, ∀ thread ∈ (underWay threads rounds (schedule ++ more)).threads,
        thread.rounds = 0 := by
  have hserial : Serial (threads * rounds)
      (underWay threads rounds schedule) :=
    (serial_start threads rounds).run schedule
  have hfinish := hserial.exists_finished
  simp only [underWay_append]
  generalize underWay threads rounds schedule = now at hserial hfinish
  have hinsiders := hserial.insiders_eq
  refine ⟨?_, ?_, ?_, ?_, hfinish⟩
  · rw [hinsiders]
    exact Bool.toNat_le now.lock.held
  · rw [hinsiders]
    cases now.lock.held
    · simp
    · simp
  · rw [← insiders_eq_zero_iff, hinsiders, SpinLock.tryLock]
    cases now.lock.held
    · simp
    · simp
  · intro hdone
    have htotal := hserial.total_eq
    rw [owed_eq_zero_of_finished hdone, Nat.add_zero] at htotal
    refine ⟨htotal, ?_⟩
    by_contra hheld
    rw [Bool.not_eq_false] at hheld
    rw [hheld, Bool.toNat_true] at hinsiders
    have hsome : 0 < insiders now.threads := by omega
    obtain ⟨inside, hmem, hinside⟩ := List.countP_pos_iff.mp hsome
    have hpos := hserial.rounds_pos inside hmem hinside
    rw [hdone inside hmem] at hpos
    exact Nat.lt_irrefl 0 hpos

end Contention

end FlashStorage
