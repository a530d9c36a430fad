import Mathlib.Algebra.Ring.Nat
import Mathlib.Data.List.Induction
import LiveFragment.Channel.Rack

namespace LiveFragment.Channel

open LiveFragment.Files LiveFragment.Media

namespace Playback

/-- The length of a loop. -/
def span (frames : List (Frame × Nat)) : Nat := (frames.map (·.2)).sum

/-- The place in a loop where a picture begins: what the pictures before it take. -/
def begins (frames : List (Frame × Nat)) (index : Nat) : Nat := span (frames.take index)

/-- The stretch of a picture holds a place in the loop. -/
def Due (frames : List (Frame × Nat)) (place index : Nat) : Prop :=
  ∃ entry, frames[index]? = some entry ∧
    begins frames index ≤ place ∧ place < begins frames index + entry.2

/-- What there is to play once a file is read: at least one picture, each shown for a while, and a
loop whose length fits a word of 64 bits. -/
structure Decoded (frames : List (Frame × Nat)) : Prop where
  nonempty : frames ≠ []
  delayed : ∀ entry ∈ frames, minDelay ≤ entry.2
  bounded : span frames < UInt64.size

section Search

variable {frames : List (Frame × Nat)} {entry : Frame × Nat} {place index other : Nat}

theorem span_cons : span (entry :: frames) = entry.2 + span frames := by
  rw [span, List.map_cons, List.sum_cons, span]

theorem begins_succ (present : frames[index]? = some entry) :
    begins frames (index + 1) = begins frames index + entry.2 := by
  simp [begins, span, List.take_add_one, present]

theorem begins_mono (le : index ≤ other) : begins frames index ≤ begins frames other := by
  obtain ⟨more, rfl⟩ := Nat.exists_eq_add_of_le le
  rw [begins, begins, List.take_add, span, span, List.map_append, List.sum_append]
  exact Nat.le_add_right _ _

theorem Due.unique (here : Due frames place index) (there : Due frames place other) :
    index = other := by
  have apart {first second : Nat} (due : Due frames place first)
      (later : begins frames second ≤ place) : ¬ first < second := by
    intro before
    obtain ⟨entry, present, -, runs⟩ := due
    have ordered : begins frames (first + 1) ≤ begins frames second := begins_mono before
    rw [begins_succ present] at ordered
    omega
  have begun : begins frames index ≤ place := here.elim fun _ held => held.2.1
  have begun' : begins frames other ≤ place := there.elim fun _ held => held.2.1
  exact Nat.le_antisymm (Nat.not_lt.mp (apart there begun)) (Nat.not_lt.mp (apart here begun'))

theorem search?_due (inside : place < span frames) :
    ∃ index, search? frames place = some index ∧ Due frames place index := by
  induction frames generalizing place with
  | nil => exact absurd inside (Nat.not_lt_zero place)
  | cons entry rest ih =>
    rw [span_cons] at inside
    rw [search?]
    split
    · rename_i first
      exact ⟨0, rfl, entry, rfl, Nat.zero_le place, by simpa [begins, span] using first⟩
    · rename_i behind
      obtain ⟨index, found, next, present, begun, runs⟩ := @ih (place - entry.2) (by omega)
      have later : begins (entry :: rest) (index + 1) = entry.2 + begins rest index := span_cons
      refine ⟨index + 1, by rw [found, Option.map_some], next, present, ?_, ?_⟩ <;> omega

end Search

theorem total_eq_span (playback : Playback) : playback.total = span playback.frames := by
  have sum (frames : List (Frame × Nat)) (time : Nat) :
      frames.foldl (fun time entry => time + entry.2) time = time + span frames := by
    induction frames generalizing time with
    | nil => rfl
    | cons entry rest ih => rw [List.foldl_cons, ih, span_cons, Nat.add_assoc]
  exact (sum playback.frames 0).trans (Nat.zero_add _)

theorem minDelay_le_delayOf (hundredths : Nat) : minDelay ≤ delayOf hundredths := by
  unfold delayOf
  dsimp only
  split
  · decide
  · rename_i long
    exact Nat.not_lt.mp long

/-- What is opened to be played has pictures, and none of them is shown too briefly. -/
theorem loadVideo_decoded {options : RackOptions} {path : String} {playback : Playback}
    (loaded : loadVideo options path = .ok playback) (bounded : span playback.frames < UInt64.size) :
    playback = ofFrames playback.frames ∧ Decoded playback.frames := by
  unfold loadVideo at loaded
  split at loaded
  · cases loaded
  · split at loaded
    · cases loaded
    · cases loaded
    · rename_i pictures some' _
      obtain rfl := Except.ok.inj loaded
      refine ⟨rfl, ?_, ?_, bounded⟩
      · intro nothing
        exact some' (List.map_eq_nil_iff.mp nothing)
      · intro entry listed
        obtain ⟨picture, _, rfl⟩ := List.mem_map.mp listed
        exact minDelay_le_delayOf picture.2

namespace Decoded

variable {frames : List (Frame × Nat)} (decoded : Decoded frames)

include decoded

theorem span_pos : 0 < span frames := by
  obtain ⟨entry, rest, rfl⟩ := List.exists_cons_of_ne_nil decoded.nonempty
  have delay : minDelay ≤ entry.2 := decoded.delayed entry List.mem_cons_self
  rw [span_cons]
  exact Nat.add_pos_left (Nat.lt_of_lt_of_le (by decide) delay) _

theorem position_eq (elapsed : Nat) :
    (ofFrames frames).position elapsed = elapsed % span frames := by
  have long : max (ofFrames frames).total 1 = span frames := by
    rw [total_eq_span]
    exact Nat.max_eq_left decoded.span_pos
  rw [position, long]
  exact Nat.mod_eq_of_lt (Nat.lt_trans (Nat.mod_lt _ decoded.span_pos) decoded.bounded)

theorem search?_position (elapsed : Nat) :
    search? frames ((ofFrames frames).position elapsed) = some ((ofFrames frames).indexAt elapsed) ∧
      Due frames (elapsed % span frames) ((ofFrames frames).indexAt elapsed) := by
  obtain ⟨index, found, due⟩ := search?_due (Nat.mod_lt elapsed decoded.span_pos)
  rw [← decoded.position_eq] at found
  have at_eq : (ofFrames frames).indexAt elapsed = index := by
    rw [indexAt]
    exact congrArg (Option.getD · _) found
  rw [at_eq]
  exact ⟨found, due⟩

theorem indexAt_loops (elapsed loops : Nat) :
    (ofFrames frames).indexAt (elapsed + loops * span frames) =
      (ofFrames frames).indexAt elapsed := by
  simp only [indexAt, decoded.position_eq, Nat.add_mul_mod_self_right]

end Decoded

/-- The playback after polls at some times. -/
def after (playback : Playback) (times : List Nat) : Playback :=
  times.foldl (fun playback now => (playback.poll now).2) playback

/-- What polls report, each with its time. -/
def log (playback : Playback) : List Nat → List (Nat × Option Frame)
  | [] => []
  | now :: later => (now, (playback.poll now).1) :: log (playback.poll now).2 later

/-- The picture that was reported last, with the time of its report. -/
def reported? (log : List (Nat × Option Frame)) : Option (Nat × Frame) :=
  (log.filterMap fun (now, report) => report.map (now, ·)).getLast?

/-- The number of the picture that was reported last: that of the one due at its report. -/
def reportedIndex? (frames : List (Frame × Nat)) (first : Nat) (log : List (Nat × Option Frame)) :
    Option Nat :=
  (reported? log).map fun report => (ofFrames frames).indexAt (report.1 - first)

theorem after_concat (playback : Playback) (earlier : List Nat) (now : Nat) :
    playback.after (earlier ++ [now]) = ((playback.after earlier).poll now).2 :=
  List.foldl_append

theorem log_concat (playback : Playback) (earlier : List Nat) (now : Nat) :
    playback.log (earlier ++ [now]) =
      playback.log earlier ++ [(now, ((playback.after earlier).poll now).1)] := by
  induction earlier generalizing playback with
  | nil => rfl
  | cons first rest ih => exact congrArg (List.cons _) (ih _)

theorem reported?_concat (log : List (Nat × Option Frame)) (now : Nat) (report : Option Frame) :
    reported? (log ++ [(now, report)]) = (report.map (now, ·)).or (reported? log) := by
  unfold reported?
  cases report <;> simp [List.filterMap_append]

/-- After a poll the picture that is due is the one that was reported last. -/
theorem poll_eq {playback : Playback} {now first : Nat} (begun : playback.start.getD now = first) :
    playback.poll now =
      (if playback.current = some (playback.indexAt (now - first)) then none
        else playback.frames[playback.indexAt (now - first)]?.map (·.1),
      { playback with
        start := some first
        current := some (playback.indexAt (now - first)) }) := by
  obtain ⟨frames, start, current⟩ := playback
  simp only [poll, begun]
  split
  · rename_i same
    exact congrArg (fun current => (none, Playback.mk frames (some first) current)) same
  · rfl

theorem after_start (frames : List (Frame × Nat)) (times : List Nat) :
    ((ofFrames frames).after times).start = times.head? := by
  induction times using List.reverseRecOn with
  | nil => rfl
  | append_singleton earlier now ih =>
    rw [after_concat, poll_eq rfl, ih]
    cases earlier <;> rfl

/-- A playback that goes with what was reported since the first poll. -/
structure Follows (frames : List (Frame × Nat)) (first : Nat) (log : List (Nat × Option Frame))
    (playback : Playback) : Prop where
  plays : playback.frames = frames
  current : playback.current = reportedIndex? frames first log
  shown : ∀ report, reported? log = some report →
    frames[(ofFrames frames).indexAt (report.1 - first)]?.map (·.1) = some report.2

namespace Follows

variable {frames : List (Frame × Nat)} {first now : Nat} {log : List (Nat × Option Frame)}
  {playback : Playback}

theorem indexAt (follows : Follows frames first log playback) (elapsed : Nat) :
    playback.indexAt elapsed = (ofFrames frames).indexAt elapsed := by
  simp only [Playback.indexAt, position, total, follows.plays, ofFrames]

theorem reported? (follows : Follows frames first log playback) {due : Nat} {entry : Frame × Nat}
    (last : reportedIndex? frames first log = some due) (present : frames[due]? = some entry) :
    (Playback.reported? log).map (·.2) = some entry.1 := by
  obtain ⟨report, found, rfl⟩ := Option.map_eq_some_iff.mp last
  have shown := follows.shown report found
  rw [present] at shown
  rw [found]
  exact shown.symm

variable {entry : Frame × Nat}

/-- A poll reports the picture that is due unless it was reported last. -/
theorem report (follows : Follows frames first log playback)
    (begun : playback.start.getD now = first)
    (due : frames[(ofFrames frames).indexAt (now - first)]? = some entry) :
    (playback.poll now).1 =
      if reportedIndex? frames first log = some ((ofFrames frames).indexAt (now - first)) then none
      else some entry.1 := by
  rw [poll_eq begun, follows.indexAt, follows.plays, due, follows.current]
  rfl

theorem reportedIndex?_poll (follows : Follows frames first log playback)
    (begun : playback.start.getD now = first)
    (due : frames[(ofFrames frames).indexAt (now - first)]? = some entry) :
    reportedIndex? frames first (log ++ [(now, (playback.poll now).1)]) =
      some ((ofFrames frames).indexAt (now - first)) := by
  rw [reportedIndex?, reported?_concat, follows.report begun due]
  split
  · rename_i same
    rwa [Option.map_none, Option.or, ← reportedIndex?]
  · rfl

theorem poll (follows : Follows frames first log playback)
    (begun : playback.start.getD now = first)
    (due : frames[(ofFrames frames).indexAt (now - first)]? = some entry) :
    Follows frames first (log ++ [(now, (playback.poll now).1)]) (playback.poll now).2 where
  plays := by rw [poll_eq begun, follows.plays]
  current := by
    rw [follows.reportedIndex?_poll begun due, poll_eq begun, follows.indexAt]
  shown := by
    rw [reported?_concat, follows.report begun due]
    split
    · exact follows.shown
    · rintro _ ⟨⟩
      exact congrArg (Option.map _) due

end Follows

/-- A playback that was polled goes with what it reported since the first poll. -/
theorem Decoded.follows {frames : List (Frame × Nat)} (decoded : Decoded frames)
    {times : List Nat} {first : Nat} (start : ∀ time ∈ times.head?, time = first) :
    Follows frames first ((ofFrames frames).log times) ((ofFrames frames).after times) := by
  induction times using List.reverseRecOn with
  | nil => exact ⟨rfl, rfl, nofun⟩
  | append_singleton earlier now ih =>
    obtain ⟨entry, due, _⟩ := (decoded.search?_position (now - first)).2
    rw [log_concat, after_concat]
    cases earlier with
    | nil => exact Follows.poll (ih nofun) (start now rfl) due
    | cons time rest =>
      exact Follows.poll (ih start) (by rw [after_start]; exact start time rfl) due

/-- The number of the picture that is due at a poll after others, counted from the first of them. -/
def dueAt (frames : List (Frame × Nat)) (earlier : List Nat) (now : Nat) : Nat :=
  (ofFrames frames).indexAt (now - earlier.headD now)

/-- A poll after others reports the picture that is due, unless it was reported last; after it that
picture was reported last. -/
structure Shows (frames : List (Frame × Nat)) (earlier : List Nat) (now : Nat)
    (entry : Frame × Nat) : Prop where
  due : frames[dueAt frames earlier now]? = some entry
  report : (((ofFrames frames).after earlier).poll now).1 =
    if reportedIndex? frames (earlier.headD now) ((ofFrames frames).log earlier) =
        some (dueAt frames earlier now) then none
    else some entry.1
  index : reportedIndex? frames (earlier.headD now) ((ofFrames frames).log (earlier ++ [now])) =
    some (dueAt frames earlier now)
  last : (reported? ((ofFrames frames).log (earlier ++ [now]))).map (·.2) = some entry.1

theorem Decoded.shows {frames : List (Frame × Nat)} (decoded : Decoded frames)
    (earlier : List Nat) (now : Nat) : ∃ entry, Shows frames earlier now entry := by
  have follows : Follows frames (earlier.headD now) ((ofFrames frames).log earlier)
      ((ofFrames frames).after earlier) := by
    apply decoded.follows
    cases earlier with
    | nil => exact nofun
    | cons time rest =>
      rintro _ ⟨⟩
      rfl
  have begun : ((ofFrames frames).after earlier).start.getD now = earlier.headD now := by
    rw [after_start]
    exact (List.headD_eq_head?_getD ..).symm
  obtain ⟨entry, due, _⟩ := (decoded.search?_position (now - earlier.headD now)).2
  have index := follows.reportedIndex?_poll begun due
  have later := follows.poll begun due
  rw [← log_concat] at index later
  exact ⟨entry, due, follows.report begun due, index, later.reported? index due⟩

/-- A search always ends inside the loop, at the one picture whose stretch holds the place. What
polls report is the picture that is due, once, and whole loops later the same is due. -/
theorem polls_follow_loop {frames : List (Frame × Nat)} (decoded : Decoded frames) :
    (∀ elapsed,
      search? frames ((ofFrames frames).position elapsed) =
          some ((ofFrames frames).indexAt elapsed) ∧
        ∀ index, Due frames (elapsed % span frames) index ↔
          index = (ofFrames frames).indexAt elapsed) ∧
    (∀ earlier now, ∃ entry, Shows frames earlier now entry) ∧
    ∀ earlier now others later loops,
      later - others.headD later = now - earlier.headD now + loops * span frames →
        dueAt frames others later = dueAt frames earlier now ∧
          (reported? ((ofFrames frames).log (others ++ [later]))).map (·.2) =
            (reported? ((ofFrames frames).log (earlier ++ [now]))).map (·.2) := by
  refine ⟨?_, decoded.shows, ?_⟩
  · intro elapsed
    obtain ⟨found, due⟩ := decoded.search?_position elapsed
    exact ⟨found, fun index => ⟨fun here => here.unique due, fun same => same ▸ due⟩⟩
  · intro earlier now others later loops apart
    have same : dueAt frames others later = dueAt frames earlier now := by
      rw [dueAt, apart, decoded.indexAt_loops, dueAt]
    obtain ⟨entry, shows⟩ := decoded.shows earlier now
    obtain ⟨again, shows'⟩ := decoded.shows others later
    have kept : some again = some entry := by rw [← shows'.due, same, shows.due]
    rw [shows.last, shows'.last, Option.some.inj kept]
    exact ⟨same, rfl⟩

/-- A red picture and a shorter blue one. -/
def clip : List (Frame × Nat) :=
  [(⟨1, 1, #[255, 0, 0, 255]⟩, 100000000), (⟨1, 1, #[0, 0, 255, 255]⟩, 50000000)]

/-- Past the end of the loop blue is due once more, and it is not reported twice. -/
theorem polls_follow_loop_clip :
    Decoded clip ∧ (((ofFrames clip).after [7, 100000007]).poll 250000007).1 = none ∧
      (reported? ((ofFrames clip).log [7, 100000007, 250000007])).map (·.2) =
        some ⟨1, 1, #[0, 0, 255, 255]⟩ := by
  have decoded : Decoded clip := ⟨by decide, by decide, by decide⟩
  obtain ⟨_, polls, _⟩ := polls_follow_loop decoded
  obtain ⟨before, shown⟩ := polls [7] 100000007
  obtain ⟨entry, shows⟩ := polls [7, 100000007] 250000007
  have last : reportedIndex? clip 7 ((ofFrames clip).log [7, 100000007]) = some 1 := shown.index
  obtain rfl : (⟨1, 1, #[0, 0, 255, 255]⟩, 50000000) = entry := Option.some.inj shows.due
  refine ⟨decoded, ?_, shows.last⟩
  rw [shows.report]
  exact if_pos last

end Playback

end LiveFragment.Channel
