import LiveFragment.Proofs.Clock.Elapsed

/-! The frame rate of a clock without rounding. The ticks are cut into windows that follow one
another from the first tick on, and each tick counts in one of them. The rate is that of the window
that was closed last: the ticks that it counts over the time that it lasts. -/

namespace LiveFragment

namespace Clock

variable {S R : Type}

/-- Something asked of a clock, or a frame that was finished. -/
inductive Move (S R : Type)
  | ask (call : Call S R)
  | finish

/-- The instant of a tick. -/
def Move.tick? : Move S R → Option Nat
  | ask ⟨.advance, instant⟩ => some instant
  | _ => none

/-- The instants of the ticks among some moves. -/
def ticks (moves : List (Move S R)) : List Nat := moves.filterMap Move.tick?

theorem ticks_append_singleton (moves : List (Move S R)) (last : Move S R) :
    ticks (moves ++ [last]) = ticks moves ++ last.tick?.toList := by
  rw [ticks, List.filterMap_append]
  cases told : last.tick? <;> simp [ticks, told]

section Moves

variable [Timescale S R]

def move (clock : Clock S R) : Move S R → Clock S R
  | .ask call => clock.call call
  | .finish => clock.completeFrame

def moved (clock : Clock S R) (moves : List (Move S R)) : Clock S R := moves.foldl move clock

theorem moved_append_singleton (clock : Clock S R) (moves : List (Move S R)) (last : Move S R) :
    clock.moved (moves ++ [last]) = (clock.moved moves).move last := by
  simp [moved]

end Moves

/-- A span of time that was closed, and the ticks that are counted in it. -/
structure Window where
  start : Nat
  stop : Nat
  ticks : List Nat

namespace Window

/-- A window is closed by the last of its ticks, the first one that comes late enough. -/
def Closed (length : Nat) (window : Window) : Prop :=
  ∃ earlier, window.ticks = earlier ++ [window.stop] ∧ window.start + length ≤ window.stop ∧
    ∀ tick ∈ earlier, tick < window.start + length

/-- The ticks of a window for each second. -/
def rate (window : Window) : ℚ := window.ticks.length / ((window.stop - window.start) / 10 ^ 9)

theorem Closed.ticks_ne_nil {length : Nat} {window : Window} (closed : window.Closed length) :
    window.ticks ≠ [] := by
  obtain ⟨earlier, counted, _⟩ := closed
  simp [counted]

end Window

/-- Where the next window starts: at the end of the one before, and the first at the first tick. -/
def opening? (ticks : List Nat) (closed : List Window) : Option Nat :=
  (closed.getLast?.map Window.stop).or ticks.head?

/-- Ticks are cut into windows of at least some length. Behind the closed ones come the ticks that
are counted in the window that is still open. -/
structure Tiles (length : Nat) (ticks : List Nat) (closed : List Window) (counting : List Nat) :
    Prop where
  counted : closed.flatMap Window.ticks ++ counting = ticks
  first : ∀ window, closed.head? = some window → ticks.head? = some window.start
  adjacent : closed.IsChain fun earlier later => earlier.stop = later.start
  ended : ∀ window ∈ closed, window.Closed length
  waiting : ∀ start, opening? ticks closed = some start → ∀ tick ∈ counting, tick < start + length

theorem opening?_concat (ticks : List Nat) (closed : List Window) (window : Window) :
    opening? ticks (closed ++ [window]) = some window.stop := by
  simp [opening?]

theorem opening?_append {ticks : List Nat} (started : ticks ≠ []) (more : List Nat)
    (closed : List Window) : opening? (ticks ++ more) closed = opening? ticks closed := by
  rw [opening?, List.head?_append_of_ne_nil ticks started, opening?]

theorem exists_opening {ticks : List Nat} (started : ticks ≠ []) (closed : List Window) :
    ∃ start, opening? ticks closed = some start := by
  obtain ⟨first, rest, rfl⟩ := List.exists_cons_of_ne_nil started
  cases last : closed.getLast? with
  | none => exact ⟨first, by simp [opening?, last]⟩
  | some window => exact ⟨window.stop, by simp [opening?, last]⟩

namespace Tiles

variable {length tick start : Nat} {ticks counting : List Nat} {closed : List Window}

theorem nil (length : Nat) : Tiles length [] [] [] :=
  ⟨rfl, nofun, .nil, nofun, nofun⟩

theorem eq_nil (tiles : Tiles length [] closed counting) : closed = [] ∧ counting = [] := by
  obtain ⟨none, rest⟩ := List.append_eq_nil_iff.mp tiles.counted
  refine ⟨?_, rest⟩
  rw [List.eq_nil_iff_forall_not_mem]
  intro window member
  exact (tiles.ended window member).ticks_ne_nil (List.flatMap_eq_nil_iff.mp none window member)

/-- No window is closed as long as no tick comes late enough after the first one. -/
theorem eq_nil_iff (tiles : Tiles length ticks closed counting) :
    closed = [] ↔ ∀ first, ticks.head? = some first → ∀ tick ∈ ticks, tick < first + length := by
  constructor
  · rintro rfl first held
    have all : counting = ticks := tiles.counted
    rw [← all]
    exact tiles.waiting first held
  · intro early
    cases closed with
    | nil => rfl
    | cons window rest =>
      obtain ⟨earlier, counted, late, _⟩ := tiles.ended window (by simp)
      have member : window.stop ∈ ticks := by
        rw [← tiles.counted, List.flatMap_cons, counted]
        simp
      have bound := early window.start (tiles.first window rfl) window.stop member
      omega

theorem start_lt_stop (tiles : Tiles length ticks closed counting) (positive : 0 < length)
    {window : Window} (member : window ∈ closed) : window.start < window.stop := by
  obtain ⟨_, _, late, _⟩ := tiles.ended window member
  omega

/-- A window that others stand before starts where the last of them stops. -/
theorem start_eq {before after : List Window} {last window : Window}
    (tiles : Tiles length ticks (before ++ [last] ++ window :: after) counting) :
    last.stop = window.start := by
  have chained := (List.isChain_append.mp tiles.adjacent).2.2
  exact chained last (by simp) window (by simp)

/-- Of ticks in order, those that are counted in a window lie in it. -/
theorem within (tiles : Tiles length ticks closed counting) (ordered : ticks.Pairwise (· ≤ ·))
    {window : Window} (member : window ∈ closed) :
    ∀ tick ∈ window.ticks, window.start ≤ tick ∧ tick ≤ window.stop := by
  obtain ⟨before, after, rfl⟩ := List.append_of_mem member
  have cut : before.flatMap Window.ticks ++
      (window.ticks ++ (after.flatMap Window.ticks ++ counting)) = ticks := by
    rw [← tiles.counted, List.flatMap_append, List.flatMap_cons, List.append_assoc,
      List.append_assoc]
  rw [← cut] at ordered
  obtain ⟨_, others, apart⟩ := List.pairwise_append.mp ordered
  intro tick counts
  have later : tick ∈ window.ticks ++ (after.flatMap Window.ticks ++ counting) :=
    List.mem_append_left _ counts
  constructor
  · cases before using List.reverseRecOn with
    | nil =>
      have head := tiles.first window rfl
      rw [← cut, List.flatMap_nil, List.nil_append] at head
      obtain ⟨rest, split⟩ := List.head?_eq_some_iff.mp head
      rw [split] at later others
      rcases List.mem_cons.mp later with rfl | behind
      · exact Nat.le_refl _
      · exact List.rel_of_pairwise_cons others behind
    | append_singleton before last =>
      obtain ⟨earlier, split, _⟩ := tiles.ended last (by simp)
      have stops : last.stop ∈ (before ++ [last]).flatMap Window.ticks := by
        rw [List.flatMap_append, List.flatMap_singleton, split]
        simp
      rw [← tiles.start_eq]
      exact apart _ stops _ later
  · obtain ⟨earlier, split, _⟩ := tiles.ended window member
    have own := (List.pairwise_append.mp others).1
    rw [split] at own counts
    rcases List.mem_append.mp counts with before | last
    · exact (List.pairwise_append.mp own).2.2 tick before _ (List.mem_singleton_self _)
    · exact Nat.le_of_eq (List.mem_singleton.mp last)

theorem begin (positive : 0 < length) (tick : Nat) : Tiles length [tick] [] [tick] := by
  refine ⟨rfl, nofun, .nil, nofun, ?_⟩
  intro start opens other member
  obtain rfl := List.mem_singleton.mp member
  obtain rfl := Option.some.inj opens
  omega

theorem ticks_ne_nil (tiles : Tiles length ticks closed counting)
    (opens : opening? ticks closed = some start) : ticks ≠ [] := by
  rintro rfl
  obtain ⟨rfl, _⟩ := tiles.eq_nil
  cases opens

theorem wait (tiles : Tiles length ticks closed counting)
    (opens : opening? ticks closed = some start) (early : tick < start + length) :
    Tiles length (ticks ++ [tick]) closed (counting ++ [tick]) := by
  have started := tiles.ticks_ne_nil opens
  refine ⟨by rw [← List.append_assoc, tiles.counted], ?_, tiles.adjacent, tiles.ended, ?_⟩
  · intro window held
    rw [List.head?_append_of_ne_nil ticks started]
    exact tiles.first window held
  · intro other held
    rw [opening?_append started, opens] at held
    obtain rfl := Option.some.inj held
    rw [List.forall_mem_append, List.forall_mem_singleton]
    exact ⟨tiles.waiting start opens, early⟩

/-- A tick that comes late enough closes the open window, and the next one starts with it. -/
theorem close (tiles : Tiles length ticks closed counting)
    (opens : opening? ticks closed = some start) (late : start + length ≤ tick) :
    Tiles length (ticks ++ [tick]) (closed ++ [⟨start, tick, counting ++ [tick]⟩]) [] := by
  have started := tiles.ticks_ne_nil opens
  refine ⟨?_, ?_, ?_, ?_, nofun⟩
  · simp [← tiles.counted]
  · intro window held
    rw [List.head?_append_of_ne_nil ticks started]
    cases closed with
    | nil =>
      obtain rfl := Option.some.inj held
      exact opens
    | cons first rest => exact tiles.first window held
  · refine List.isChain_append.mpr ⟨tiles.adjacent, .singleton _, ?_⟩
    intro last held next same
    obtain rfl := Option.some.inj same
    rw [opening?, Option.mem_def.mp held] at opens
    exact Option.some.inj opens
  · rw [List.forall_mem_append, List.forall_mem_singleton]
    exact ⟨tiles.ended, counting, rfl, late, tiles.waiting start opens⟩

/-- Without the tick that is counted last the windows are those from before it. -/
theorem of_wait (tiles : Tiles length (ticks ++ [tick]) closed (counting ++ [tick]))
    (started : ticks ≠ []) (opens : opening? ticks closed = some start) :
    Tiles length ticks closed counting ∧ tick < start + length := by
  have still := (opening?_append started [tick] closed).trans opens
  have early := tiles.waiting start still
  rw [List.forall_mem_append, List.forall_mem_singleton] at early
  refine ⟨⟨?_, ?_, tiles.adjacent, tiles.ended, ?_⟩, early.2⟩
  · exact List.append_cancel_right ((List.append_assoc _ _ _).trans tiles.counted)
  · intro window held
    rw [← List.head?_append_of_ne_nil ticks started]
    exact tiles.first window held
  · intro other held
    obtain rfl := Option.some.inj (opens.symm.trans held)
    exact early.1

theorem of_close
    (tiles : Tiles length (ticks ++ [tick]) (closed ++ [⟨start, tick, counting ++ [tick]⟩]) [])
    (started : ticks ≠ []) :
    Tiles length ticks closed counting ∧ opening? ticks closed = some start ∧
      start + length ≤ tick := by
  obtain ⟨earlier, same, late, before⟩ := tiles.ended _ (List.mem_append_right _ (.head _))
  obtain rfl := List.append_cancel_right same
  have opens : opening? ticks closed = some start := by
    cases closed using List.reverseRecOn with
    | nil =>
      rw [opening?, ← List.head?_append_of_ne_nil ticks started]
      exact tiles.first _ rfl
    | append_singleton closed last => rw [opening?_concat, tiles.start_eq]
  refine ⟨⟨?_, ?_, (List.isChain_append.mp tiles.adjacent).1, ?_, ?_⟩, opens, late⟩
  · have counted := tiles.counted
    rw [List.append_nil, List.flatMap_append, List.flatMap_singleton, ← List.append_assoc]
      at counted
    exact List.append_cancel_right counted
  · intro first held
    rw [← List.head?_append_of_ne_nil ticks started]
    refine tiles.first first ?_
    rw [List.head?_append, held, Option.some_or]
  · exact fun other member => tiles.ended other (List.mem_append_left _ member)
  · intro other held
    obtain rfl := Option.some.inj (opens.symm.trans held)
    exact before

/-- What the last tick does to the windows: it opens the first one, it is counted in the open one,
or it closes that. -/
inductive Last (length : Nat) (ticks : List Nat) (tick : Nat) : List Window → List Nat → Prop
  | begin (fresh : ticks = []) : Last length ticks tick [] [tick]
  | wait {closed : List Window} {counting : List Nat} {start : Nat}
    (tiles : Tiles length ticks closed counting) (opens : opening? ticks closed = some start)
    (early : tick < start + length) : Last length ticks tick closed (counting ++ [tick])
  | close {closed : List Window} {counting : List Nat} {start : Nat}
    (tiles : Tiles length ticks closed counting) (opens : opening? ticks closed = some start)
    (late : start + length ≤ tick) :
    Last length ticks tick (closed ++ [⟨start, tick, counting ++ [tick]⟩]) []

theorem last (positive : 0 < length) (tiles : Tiles length (ticks ++ [tick]) closed counting) :
    Last length ticks tick closed counting := by
  -- The first tick is too early to close anything.
  have first (fresh : ticks = []) : closed = [] := by
    subst fresh
    exact tiles.eq_nil_iff.mpr (by simpa using positive)
  cases counting using List.reverseRecOn with
  | append_singleton counting other =>
    obtain ⟨counted, same⟩ := List.append_inj' ((List.append_assoc _ _ _).trans tiles.counted) rfl
    obtain rfl := List.singleton_inj.mp same
    by_cases fresh : ticks = []
    · obtain rfl := first fresh
      obtain rfl : counting = [] := counted.trans fresh
      exact .begin fresh
    · obtain ⟨start, opens⟩ := exists_opening fresh closed
      obtain ⟨before, early⟩ := tiles.of_wait fresh opens
      exact .wait before opens early
  | nil =>
    cases closed using List.reverseRecOn with
    | nil => exact absurd tiles.counted.symm (by simp)
    | append_singleton closed window =>
      obtain ⟨earlier, split, -, -⟩ := tiles.ended window (by simp)
      obtain ⟨start, stop, counted⟩ := window
      obtain rfl : counted = earlier ++ [stop] := split
      have all := tiles.counted
      rw [List.append_nil, List.flatMap_append, List.flatMap_singleton, ← List.append_assoc] at all
      obtain ⟨-, same⟩ := List.append_inj' all rfl
      obtain rfl := List.singleton_inj.mp same
      obtain ⟨before, opens, late⟩ := tiles.of_close (fun fresh => by simpa using first fresh)
      exact .close before opens late

theorem exists_tiles (positive : 0 < length) (ticks : List Nat) :
    ∃ closed counting, Tiles length ticks closed counting := by
  induction ticks using List.reverseRecOn with
  | nil => exact ⟨[], [], .nil length⟩
  | append_singleton ticks tick ih =>
    obtain ⟨closed, counting, tiles⟩ := ih
    by_cases fresh : ticks = []
    · subst fresh
      exact ⟨_, _, begin positive tick⟩
    · obtain ⟨start, opens⟩ := exists_opening fresh closed
      by_cases late : start + length ≤ tick
      · exact ⟨_, _, tiles.close opens late⟩
      · exact ⟨_, _, tiles.wait opens (Nat.lt_of_not_le late)⟩

end Tiles

/-- The rate of the window that was closed last. -/
def published (closed : List Window) : ℚ := (closed.getLast?.map Window.rate).getD 0

/-- No window counts as many ticks as a word of 32 bits can tell apart. -/
def Countable (closed : List Window) (counting : List Nat) : Prop :=
  (∀ window ∈ closed, window.ticks.length < UInt32.size) ∧ counting.length < UInt32.size

section Calls

variable [Timescale S R] (clock : Clock S R)

/-- What a clock measures with. -/
structure SameMeasure (before after : Clock S R) : Prop where
  window : after.window = before.window
  rate : after.rate = before.rate
  counted : after.counted = before.counted
  windowStart : after.windowStart = before.windowStart

theorem move_sameMeasure {last : Move S R} (silent : last.tick? = none) :
    SameMeasure clock (clock.move last) := by
  cases last with
  | finish =>
    simp only [move, completeFrame]
    split <;> exact ⟨rfl, rfl, rfl, rfl⟩
  | ask last =>
    obtain ⟨control, instant⟩ := last
    cases control with
    | advance => cases silent
    | play =>
      simp only [move, call, play]
      split <;> exact ⟨rfl, rfl, rfl, rfl⟩
    | pause =>
      simp only [move, call, pause]
      split <;> exact ⟨rfl, rfl, rfl, rfl⟩
    | _ => exact ⟨rfl, rfl, rfl, rfl⟩

theorem move_tick {last : Move S R} {tick : Nat} (told : last.tick? = some tick) :
    clock.move last = (clock.advance tick).2 := by
  cases last with
  | finish => cases told
  | ask last =>
    obtain ⟨control, instant⟩ := last
    cases control <;> cases told
    rfl

variable {clock} {start now : Nat}

theorem advance_early (held : clock.windowStart.getD now = start)
    (early : ¬(clock.window ≤ now - start ∧ now - start ≠ 0)) :
    (clock.advance now).2.window = clock.window ∧ (clock.advance now).2.rate = clock.rate ∧
      (clock.advance now).2.counted = clock.counted + 1 ∧
      (clock.advance now).2.windowStart = some start := by
  subst held
  simp only [advance, measure, if_neg early, and_self]

theorem advance_late (held : clock.windowStart.getD now = start)
    (late : clock.window ≤ now - start ∧ now - start ≠ 0) :
    (clock.advance now).2.window = clock.window ∧
      (clock.advance now).2.rate = Timescale.rate (clock.counted + 1).toNat (now - start) ∧
      (clock.advance now).2.counted = 0 ∧ (clock.advance now).2.windowStart = some now := by
  subst held
  simp only [advance, measure, if_pos late, and_self]

end Calls

/-- A clock tells the rate of the windows that are closed, and is in the middle of the open one. -/
structure Measures (length : Nat) (ticks : List Nat) (closed : List Window) (counting : List Nat)
    (clock : Clock ℚ ℚ) : Prop where
  window : clock.window = length
  rate : clock.rate = published closed
  counted : clock.counted.toNat = counting.length
  windowStart : clock.windowStart = opening? ticks closed

theorem published_concat (closed : List Window) (window : Window) :
    published (closed ++ [window]) = window.rate := by
  simp [published]

theorem toNat_succ {count : UInt32} {length : Nat} (counted : count.toNat = length)
    (room : length + 1 < UInt32.size) : (count + 1).toNat = length + 1 := by
  have bound : length + 1 < 2 ^ 32 := room
  rw [UInt32.toNat_add, counted]
  exact Nat.mod_eq_of_lt bound

namespace Measures

variable {length : Nat} {ticks counting : List Nat} {closed : List Window} {clock : Clock ℚ ℚ}

theorem new (initial : ℚ) (length : Nat) : Measures length [] [] [] (Clock.new initial length) :=
  ⟨rfl, rfl, rfl, rfl⟩

theorem silent (measures : Measures length ticks closed counting clock) {later : Clock ℚ ℚ}
    (same : SameMeasure clock later) : Measures length ticks closed counting later where
  window := same.window.trans measures.window
  rate := same.rate.trans measures.rate
  counted := (congrArg UInt32.toNat same.counted).trans measures.counted
  windowStart := same.windowStart.trans measures.windowStart

theorem wait (measures : Measures length ticks closed counting clock) {start tick : Nat}
    (opens : opening? (ticks ++ [tick]) closed = some start)
    (held : clock.windowStart.getD tick = start) (early : tick < start + length)
    (room : counting.length + 1 < UInt32.size) :
    Measures length (ticks ++ [tick]) closed (counting ++ [tick]) (clock.advance tick).2 := by
  have short : ¬(clock.window ≤ tick - start ∧ tick - start ≠ 0) := by
    rw [measures.window]
    omega
  obtain ⟨window, rate, counted, windowStart⟩ := advance_early held short
  refine ⟨window.trans measures.window, rate.trans measures.rate, ?_, windowStart.trans opens.symm⟩
  rw [counted, toNat_succ measures.counted room, List.length_append, List.length_singleton]

theorem close (measures : Measures length ticks closed counting clock) (positive : 0 < length)
    {start tick : Nat} (opens : opening? ticks closed = some start) (late : start + length ≤ tick)
    (room : counting.length + 1 < UInt32.size) :
    Measures length (ticks ++ [tick]) (closed ++ [⟨start, tick, counting ++ [tick]⟩]) []
      (clock.advance tick).2 := by
  have enough : clock.window ≤ tick - start ∧ tick - start ≠ 0 := by
    rw [measures.window]
    omega
  have held : clock.windowStart.getD tick = start := by
    rw [measures.windowStart, opens, Option.getD_some]
  have span : ((tick - start : Nat) : ℚ) = tick - start := Nat.cast_sub (by omega)
  obtain ⟨window, rate, counted, windowStart⟩ := advance_late held enough
  refine ⟨window.trans measures.window, ?_, congrArg UInt32.toNat counted, ?_⟩
  · rw [rate, toNat_succ measures.counted room, published_concat]
    simp only [Window.rate, Timescale.rate, List.length_append, List.length_singleton, span]
  · rw [windowStart, opening?_concat]

/-- Every move goes on with the windows that its tick, if it is one, is cut into. -/
theorem move {moves : List (Move ℚ ℚ)} {last : Move ℚ ℚ} (positive : 0 < length)
    (before : ∀ closed counting, Tiles length (Clock.ticks moves) closed counting →
      Countable closed counting → Measures length (Clock.ticks moves) closed counting clock)
    (tiles : Tiles length (Clock.ticks (moves ++ [last])) closed counting)
    (countable : Countable closed counting) :
    Measures length (Clock.ticks (moves ++ [last])) closed counting (clock.move last) := by
  rw [ticks_append_singleton] at tiles ⊢
  cases told : last.tick? with
  | none =>
    rw [told, Option.toList_none, List.append_nil] at tiles
    rw [Option.toList_none, List.append_nil]
    exact (before closed counting tiles countable).silent (clock.move_sameMeasure told)
  | some tick =>
    rw [told, Option.toList_some] at tiles
    rw [Option.toList_some, clock.move_tick told]
    cases tiles.last positive with
    | begin fresh =>
      have measures := before [] [] (fresh ▸ .nil length) ⟨nofun, by decide⟩
      have held : clock.windowStart.getD tick = tick := by
        rw [measures.windowStart, fresh]
        rfl
      exact measures.wait (by rw [fresh]; rfl) held (by omega) countable.2
    | @wait _ _ start earlier opens early =>
      have room := countable.2
      rw [List.length_append, List.length_singleton] at room
      have measures := before _ _ earlier ⟨countable.1, Nat.lt_of_succ_lt room⟩
      have held : clock.windowStart.getD tick = start := by
        rw [measures.windowStart, opens, Option.getD_some]
      have still := (opening?_append (earlier.ticks_ne_nil opens) [tick] closed).trans opens
      exact measures.wait still held early room
    | close earlier opens late =>
      have room := countable.1 _ (List.mem_append_right _ (List.mem_singleton_self _))
      rw [List.length_append, List.length_singleton] at room
      have others := fun window member => countable.1 window (List.mem_append_left _ member)
      have measures := before _ _ earlier ⟨others, Nat.lt_of_succ_lt room⟩
      exact measures.close positive opens late room

/-- What a clock tells after any moves. -/
theorem moved (initial : ℚ) (positive : 0 < length) (moves : List (Move ℚ ℚ)) :
    ∀ closed counting, Tiles length (Clock.ticks moves) closed counting →
      Countable closed counting →
      Measures length (Clock.ticks moves) closed counting
        ((Clock.new initial length).moved moves) := by
  induction moves using List.reverseRecOn with
  | nil =>
    intro closed counting tiles _
    obtain ⟨rfl, rfl⟩ := tiles.eq_nil
    exact new initial length
  | append_singleton moves last ih =>
    intro closed counting tiles countable
    rw [moved_append_singleton]
    exact move positive ih tiles countable

end Measures

theorem advance_reports [Timescale S R] (clock : Clock S R) (instant : Nat) :
    (clock.advance instant).1.rate = (clock.move (.ask ⟨.advance, instant⟩)).rate := rfl

/-- The rate of a clock after any moves is that of the window that was closed last, and none before
a tick came late enough after the first one. Each tick is counted in one window; the windows follow
one another, and time passes in each of them. Only the ticks among the moves make a difference. -/
theorem moved_rate (initial : ℚ) {length : Nat} (positive : 0 < length)
    (moves : List (Move ℚ ℚ)) :
    (∃ closed counting, Tiles length (ticks moves) closed counting) ∧
      ∀ closed counting, Tiles length (ticks moves) closed counting → Countable closed counting →
        ((Clock.new initial length).moved moves).rate = published closed ∧
          (∀ before instant, moves = before ++ [.ask ⟨.advance, instant⟩] →
            (((Clock.new initial length).moved before).advance instant).1.rate =
              published closed) ∧
          (∀ speed others, ticks others = ticks moves →
            ((Clock.new speed length).moved others).rate = published closed) ∧
          (closed = [] ↔
            ∀ first, (ticks moves).head? = some first →
              ∀ tick ∈ ticks moves, tick < first + length) ∧
          (∀ window ∈ closed, window.start < window.stop) ∧
          ((ticks moves).Pairwise (· ≤ ·) → ∀ window ∈ closed, ∀ tick ∈ window.ticks,
            window.start ≤ tick ∧ tick ≤ window.stop) := by
  refine ⟨Tiles.exists_tiles positive (ticks moves), ?_⟩
  intro closed counting tiles countable
  have told (speed : ℚ) (others : List (Move ℚ ℚ)) (same : ticks others = ticks moves) :
      ((Clock.new speed length).moved others).rate = published closed :=
    (Measures.moved speed positive others closed counting (same ▸ tiles) countable).rate
  refine ⟨told initial moves rfl, ?_, told, tiles.eq_nil_iff,
    fun window member => tiles.start_lt_stop positive member,
    fun ordered window member => tiles.within ordered member⟩
  rintro before instant rfl
  rw [advance_reports, ← moved_append_singleton]
  exact told initial _ rfl

/-- Two windows of at least a second. The clock is paused in the first one, and the second one
starts with two ticks at once. -/
def measuredMoves : List (Move ℚ ℚ) :=
  [.ask ⟨.play, 0⟩, .ask ⟨.advance, 500000000⟩, .finish, .ask ⟨.advance, 900000000⟩,
    .ask ⟨.pause, 1000000000⟩, .ask ⟨.advance, 1500000000⟩, .ask ⟨.advance, 1500000000⟩,
    .ask ⟨.seek 7, 1600000000⟩, .ask ⟨.setSpeed 3, 2000000000⟩, .ask ⟨.advance, 3000000000⟩,
    .finish, .ask ⟨.advance, 3100000000⟩]

theorem moved_rate_measured :
    ∃ closed counting, Tiles 1000000000 (ticks measuredMoves) closed counting ∧
      Countable closed counting ∧
      ((Clock.new 1 1000000000).moved measuredMoves).rate = 4 / 3 := by
  have positive : 0 < 1000000000 := by decide
  have first : Tiles 1000000000 [500000000, 900000000] [] [500000000, 900000000] :=
    (Tiles.begin positive 500000000).wait rfl (by decide)
  have second : Tiles 1000000000 [500000000, 900000000, 1500000000, 1500000000]
      [⟨500000000, 1500000000, [500000000, 900000000, 1500000000]⟩] [1500000000] :=
    (first.close rfl (by decide)).wait rfl (by decide)
  have tiles : Tiles 1000000000 (ticks measuredMoves)
      [⟨500000000, 1500000000, [500000000, 900000000, 1500000000]⟩,
        ⟨1500000000, 3000000000, [1500000000, 3000000000]⟩] [3100000000] :=
    (second.close rfl (by decide)).wait rfl (by decide)
  refine ⟨_, _, tiles, ⟨by decide, by decide⟩, ?_⟩
  have told := (moved_rate 1 positive measuredMoves).2 _ _ tiles ⟨by decide, by decide⟩
  refine told.1.trans ?_
  norm_num [published, Window.rate]

end Clock

end LiveFragment
