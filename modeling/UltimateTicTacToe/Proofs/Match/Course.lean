/-
# A match does not depend on its course

However the games of a match are taken up and finished, each of those that are finished is
the game of its plan, none of them fails, and what has been reported are the games that
are finished (`Course.Sound`). This is kept by every step, since a step changes one game
only and no two games share anything.

Until the match is over there is a next step (`Course.Sound.exists_step`), and there are
only so many (`Course.left_step`). So a match is over at last, and what it has come to is
`MatchConfig.result`, which no step has any say in.

What does depend on the course is the order of the reports. Games that are played at the
same time may be finished in any order (`Course.exists_course_of_perm`), and games that
are played one after the other in their own only (`Course.reported_eq_of_start`).

Key definitions: `Course.Sound`, `Course.left`, `Course.InTurn`.
Key theorems: `Course.Sound.step`, `Course.sound_of_start`, `Course.Sound.result?_eq`,
`Course.exists_course_of_perm`, `Course.reported_eq_of_start`, `MatchConfig.play_anyCourse`.
-/
import Mathlib.Logic.Relation
import UltimateTicTacToe.Match.Course
import UltimateTicTacToe.Proofs.Match.Result

namespace UltimateTicTacToe

namespace Stage

/-- Whether a game with this plan can be in this stage, when no game fails. -/
def Suits (p : GamePlan) : Stage → Prop
  | .waiting => True
  | .playing => True
  | .finished g => g = p.game
  | .abandoned => False

/-- A game that is settled is finished, and it is that of its plan. -/
theorem Suits.game?_eq {p : GamePlan} {s : Stage} (h : s.Suits p) (hs : s.isSettled = true) :
    s.game? = some p.game := by
  cases s with
  | waiting => cases hs
  | playing => cases hs
  | finished g => rw [game?, show g = p.game from h]
  | abandoned => cases h

/-- How often something will happen to the game. -/
def left : Stage → Nat
  | .waiting => 2
  | .playing => 1
  | _ => 0

end Stage

namespace Course

/-- What is true of a match at every moment. -/
structure Sound (c : MatchConfig) (r : Course) : Prop where
  plans : r.games.map Prod.fst = c.plans
  suits : ∀ q ∈ r.games, q.2.Suits q.1
  faultless : r.fault = none
  reported : r.reported.Perm r.finished

variable {c : MatchConfig} {r r' : Course} {parallel : Bool}

theorem waiting_start (c : MatchConfig) : ∀ q ∈ (start c).games, q.2 = .waiting := by
  intro q hq
  obtain ⟨p, -, rfl⟩ := List.mem_map.mp hq
  rfl

theorem filterMap_game?_of_waiting {games : List (GamePlan × Stage)}
    (h : ∀ q ∈ games, q.2 = .waiting) : games.filterMap (·.2.game?) = [] :=
  List.filterMap_eq_nil_iff.mpr fun q hq => by
    rw [h q hq]
    rfl

theorem finished_start (c : MatchConfig) : (start c).finished = [] :=
  filterMap_game?_of_waiting (waiting_start c)

theorem sound_start (c : MatchConfig) : Sound c (.start c) := by
  refine ⟨?_, fun q hq => ?_, rfl, ?_⟩
  · rw [start, List.map_map]
    exact List.map_id _
  · rw [waiting_start c q hq]
    trivial
  · rw [finished_start]
    exact .refl _

/-! ### Steps -/

theorem finished_mk (before after : List (GamePlan × Stage)) (p : GamePlan) (s : Stage)
    (reported : List PlayedGame) (fault : Option Fault) :
    finished ⟨before ++ (p, s) :: after, reported, fault⟩ =
      before.filterMap (·.2.game?) ++ (s.game?.toList ++ after.filterMap (·.2.game?)) := by
  simp only [finished, List.filterMap_append, List.filterMap_cons]
  cases s.game? <;> rfl

/-- One game comes to another stage. It is reported if it is finished then. -/
theorem Sound.moveOn {before after : List (GamePlan × Stage)} {p : GamePlan} {s s' : Stage}
    {reported : List PlayedGame} {fault : Option Fault}
    (h : Sound c ⟨before ++ (p, s) :: after, reported, fault⟩) (hs : s.game? = none)
    (hsuits : s'.Suits p) :
    Sound c ⟨before ++ (p, s') :: after, reported ++ s'.game?.toList, fault⟩ := by
  obtain ⟨hplans, hall, hfault, hreported⟩ := h
  refine ⟨?_, ?_, hfault, ?_⟩
  · rw [← hplans]
    simp only [List.map_append, List.map_cons]
  · rw [List.forall_mem_append, List.forall_mem_cons] at hall ⊢
    exact ⟨hall.1, hsuits, hall.2.2⟩
  · rw [finished_mk, hs, Option.toList_none, List.nil_append] at hreported
    rw [finished_mk]
    calc (reported ++ s'.game?.toList).Perm _ := hreported.append_right _
      List.Perm _ _ := by
        rw [List.append_assoc]
        exact List.perm_append_comm.append_left _

/-- **A step changes nothing that matters.** -/
theorem Sound.step (h : Sound c r) (hs : Step parallel r r') : Sound c r' := by
  cases hs with
  | @takeUp before after p reported fault _ =>
    have h : Sound c ⟨before ++ (p, .playing) :: after, reported ++ [], fault⟩ :=
      h.moveOn rfl trivial
    rwa [List.append_nil] at h
  | @finish before after p g reported fault hplay =>
    have hg : g = p.game := by
      rw [p.play_eq] at hplay
      exact (Except.ok.inj hplay).symm
    exact h.moveOn rfl hg
  | fail hplay =>
    rw [GamePlan.play_eq] at hplay
    cases hplay
  | drop => cases h.faultless

/-- It is true of a match at every moment of every course. -/
theorem sound_of_start (h : Relation.ReflTransGen (Step parallel) (.start c) r) : Sound c r := by
  induction h with
  | refl => exact sound_start c
  | tail _ hs ih => exact ih.step hs

/-! ### Coming to an end -/

/-- **A match that is not over goes on.** If the first game that is not settled is waiting,
it can be taken up, and if it is being played, it can be finished. -/
theorem Sound.exists_step (h : Sound c r) (hover : r.isOver = false) :
    ∃ r', Step parallel r r' := by
  obtain ⟨games, reported, fault⟩ := r
  have hsome : (games.find? fun q => !q.2.isSettled).isSome = true := by
    rw [List.find?_isSome]
    simpa only [isOver, List.all_eq_false, Bool.not_eq_true, Bool.not_eq_true'] using hover
  obtain ⟨⟨p, s⟩, hfirst⟩ := Option.isSome_iff_exists.mp hsome
  obtain ⟨hs, before, after, rfl, hbefore⟩ := List.find?_eq_some_iff_append.mp hfirst
  cases s with
  | waiting =>
    refine ⟨_, .takeUp (.inr fun q hq => ?_)⟩
    have hsettled : q.2.isSettled = true := by simpa using hbefore q hq
    rw [(h.suits q (List.mem_append_left _ hq)).game?_eq hsettled]
    rfl
  | playing => exact ⟨_, .finish p.play_eq⟩
  | finished g => cases hs
  | abandoned => cases hs

/-- How much there is left to happen. -/
def left (r : Course) : Nat := r.games.foldr (fun q n => q.2.left + n) 0

/-- Less is left of a match when less is left of one of its games. -/
theorem left_lt {before after : List (GamePlan × Stage)} {p : GamePlan} {s s' : Stage}
    {reported reported' : List PlayedGame} {fault fault' : Option Fault}
    (h : s'.left < s.left) :
    left ⟨before ++ (p, s') :: after, reported', fault'⟩ <
      left ⟨before ++ (p, s) :: after, reported, fault⟩ := by
  unfold left
  induction before with
  | nil => exact Nat.add_lt_add_right h _
  | cons q before ih => exact Nat.add_lt_add_left ih _

/-- **Every step leaves less to happen.** -/
theorem left_step (hs : Step parallel r r') : r'.left < r.left := by
  cases hs with
  | takeUp _ | finish _ | fail _ | drop => exact left_lt (by simp only [Stage.left]; decide)

/-- **When a match is over, it has come to its result.** -/
theorem Sound.result?_eq (h : Sound c r) (hover : r.isOver = true) :
    r.result? = some (.ok c.result) ∧ r.reported.Perm c.result.games := by
  have hgames : r.finished = c.result.games := by
    have hsettled : ∀ q ∈ r.games, q.2.game? = some (GamePlan.game q.1) := fun q hq =>
      (h.suits q hq).game?_eq (List.all_eq_true.mp hover q hq)
    calc r.finished
        = r.games.filterMap (fun q => some (GamePlan.game q.1)) :=
          List.filterMap_congr hsettled
      _ = (r.games.map Prod.fst).map GamePlan.game := by
          rw [List.filterMap_eq_map', List.map_map]
          rfl
      _ = c.result.games := by rw [h.plans, c.games_result]
  refine ⟨?_, hgames ▸ h.reported⟩
  rw [result?, if_pos hover, h.faultless, hgames]
  rfl

/-! ### Orders -/

/-- Games that wait can be played one by one in any order. -/
theorem exists_course {order : List PlayedGame} {games : List (GamePlan × Stage)}
    (reported : List PlayedGame)
    (hgames : ∀ q ∈ games, q.2 = .waiting ∨ q.2.isSettled = true)
    (horder : order.Perm ((games.filter (·.2 = .waiting)).map fun q => q.1.game)) :
    ∃ r, Relation.ReflTransGen (Step true) ⟨games, reported, none⟩ r ∧ r.isOver = true ∧
      r.reported = reported ++ order := by
  induction order generalizing games reported with
  | nil =>
    refine ⟨_, .refl, ?_, (List.append_nil _).symm⟩
    have hnone := List.filter_eq_nil_iff.mp (List.map_eq_nil_iff.mp horder.nil_eq.symm)
    refine List.all_eq_true.mpr fun q hq => (hgames q hq).resolve_left fun hwaiting => ?_
    exact hnone q hq (decide_eq_true hwaiting)
  | cons g order ih =>
    obtain ⟨⟨p, s⟩, hmem, rfl⟩ := List.mem_map.mp (horder.mem_iff.mp List.mem_cons_self)
    obtain ⟨hmem, hs⟩ := List.mem_filter.mp hmem
    obtain rfl : s = .waiting := of_decide_eq_true hs
    obtain ⟨before, after, rfl⟩ := List.append_of_mem hmem
    have hothers : ∀ q ∈ before ++ (p, .finished p.game) :: after,
        q.2 = .waiting ∨ q.2.isSettled = true := by
      rw [List.forall_mem_append, List.forall_mem_cons] at hgames ⊢
      exact ⟨hgames.1, .inr rfl, hgames.2.2⟩
    have hrest : order.Perm (((before ++ (p, .finished p.game) :: after).filter
        (·.2 = .waiting)).map fun q => q.1.game) := by
      simp only [List.filter_append, List.filter_cons, List.map_append, decide_true, if_true,
        List.map_cons, reduceCtorEq, decide_false, Bool.false_eq_true, if_false] at horder ⊢
      exact (horder.trans List.perm_middle).cons_inv
    obtain ⟨r, hcourse, hover, hreported⟩ := ih (reported ++ [p.game]) hothers hrest
    refine ⟨r, .head (.takeUp (.inl rfl)) (.head (.finish p.play_eq) hcourse), hover, ?_⟩
    rw [hreported, List.append_assoc]
    rfl

/-- **Games that are played at the same time may be finished in any order.** -/
theorem exists_course_of_perm {order : List PlayedGame} (h : order.Perm c.result.games) :
    ∃ r, Relation.ReflTransGen (Step true) (.start c) r ∧ r.isOver = true ∧
      r.reported = order := by
  have hwaiting : (start c).games.filter (·.2 = .waiting) = (start c).games :=
    List.filter_eq_self.mpr fun q hq => decide_eq_true (waiting_start c q hq)
  have horder : order.Perm (((start c).games.filter (·.2 = .waiting)).map fun q => q.1.game) := by
    rw [hwaiting, start, List.map_map]
    exact h
  exact exists_course [] (fun q hq => .inl (waiting_start c q hq)) horder

/-- The games are played in turn: behind one that is not finished nothing has begun, and
they have been reported in the order of their plans. -/
structure InTurn (r : Course) : Prop where
  games : r.games.Pairwise fun q q' => q.2.game?.isSome = true ∨ q'.2 = .waiting
  reported : r.reported = r.finished

theorem inTurn_start (c : MatchConfig) : InTurn (.start c) where
  games := List.pairwise_of_forall_mem_list fun _ _ q hq => .inr (waiting_start c q hq)
  reported := (finished_start c).symm

/-- The next game in turn comes to another stage. -/
theorem InTurn.moveOn {before after : List (GamePlan × Stage)} {p : GamePlan} {s s' : Stage}
    {reported : List PlayedGame} {fault fault' : Option Fault}
    (h : InTurn ⟨before ++ (p, s) :: after, reported, fault⟩) (hs : s.game? = none)
    (hbefore : ∀ q ∈ before, q.2.game?.isSome = true) :
    InTurn ⟨before ++ (p, s') :: after, reported ++ s'.game?.toList, fault'⟩ := by
  obtain ⟨hgames, hreported⟩ := h
  rw [List.pairwise_append, List.pairwise_cons] at hgames
  obtain ⟨hfirst, ⟨hnext, hlast⟩, -⟩ := hgames
  have hwaiting : ∀ q ∈ after, q.2 = .waiting := fun q hq =>
    (hnext q hq).resolve_left fun hsome => by
      rw [hs] at hsome
      cases hsome
  refine ⟨?_, ?_⟩
  · rw [List.pairwise_append, List.pairwise_cons]
    exact ⟨hfirst, ⟨fun q hq => .inr (hwaiting q hq), hlast⟩, fun q hq _ _ => .inl (hbefore q hq)⟩
  · show reported ++ s'.game?.toList = _
    rw [show reported = _ from hreported, finished_mk, finished_mk, hs,
      filterMap_game?_of_waiting hwaiting, Option.toList_none, List.append_nil, List.append_nil,
      List.append_nil]

/-- What is before a game that is being played is finished. -/
theorem InTurn.finished_before {before after : List (GamePlan × Stage)} {p : GamePlan}
    {reported : List PlayedGame} {fault : Option Fault}
    (h : InTurn ⟨before ++ (p, .playing) :: after, reported, fault⟩) :
    ∀ q ∈ before, q.2.game?.isSome = true := fun q hq =>
  ((List.pairwise_append.mp h.games).2.2 q hq _ List.mem_cons_self).resolve_right
    fun hwaiting => nomatch hwaiting

theorem InTurn.step (h : InTurn r) (hfault : r.fault = none) (hs : Step false r r') :
    InTurn r' := by
  cases hs with
  | @takeUp before after p reported fault hbefore =>
    have h : InTurn ⟨before ++ (p, .playing) :: after, reported ++ [], fault⟩ :=
      h.moveOn rfl (hbefore.resolve_left (by decide))
    rwa [List.append_nil] at h
  | finish _ => exact h.moveOn rfl h.finished_before
  | @fail before after p f reported fault _ =>
    have h : InTurn ⟨before ++ (p, .abandoned) :: after, reported ++ [], fault.or (some f)⟩ :=
      h.moveOn rfl h.finished_before
    rwa [List.append_nil] at h
  | drop => cases hfault

/-- **Games that are played one after the other are reported in their order.** -/
theorem reported_eq_of_start (h : Relation.ReflTransGen (Step false) (.start c) r) :
    r.reported = r.finished := by
  have hturn : InTurn r := by
    induction h with
    | refl => exact inTurn_start c
    | tail h hs ih => exact ih.step (sound_of_start h).faultless hs
  exact hturn.reported

end Course

/-! ### Schedules -/

/-- **What a match comes to does not depend on how it is played.** There is one result, and
it is as the configuration fixes it. Whether games are played one after the other or at the
same time, it is what is returned; in whatever order they are taken up and finished, the
match goes on until it is over, it has this result then, and each game has been reported
once. -/
theorem MatchConfig.play_anyCourse (c : MatchConfig) (h : 2 * c.gamesPerSide < UInt32.size) :
    ∃ r : MatchResult, c.Yields r ∧ (∀ parallel, { c with parallel }.play = .ok r) ∧
      ∀ parallel course, Relation.ReflTransGen (Course.Step parallel) (.start c) course →
        (course.isOver = false → ∃ next, Course.Step parallel course next) ∧
        (∀ next, Course.Step parallel course next → next.left < course.left) ∧
        (course.isOver = true → course.result? = some (.ok r) ∧
          course.reported.Perm r.games ∧ ∀ g ∈ r.games, course.reported.count g = 1) := by
  refine ⟨c.result, yields_result h, fun parallel => { c with parallel }.play_eq, ?_⟩
  intro parallel course hcourse
  have hsound := Course.sound_of_start hcourse
  refine ⟨hsound.exists_step, fun next => Course.left_step, fun hover => ?_⟩
  obtain ⟨hresult, hreported⟩ := hsound.result?_eq hover
  refine ⟨hresult, hreported, fun g hg => ?_⟩
  rw [hreported.count_eq]
  exact List.count_eq_one_of_mem c.nodup_games hg

/-- Four games with a base so large that the seeds of the last ones are small again. -/
def wrappingMatch : MatchConfig := ⟨2, some 0xFFFFFFFFFFFFFFFD, true⟩

theorem wrappingMatch_anyCourse :
    2 * wrappingMatch.gamesPerSide < UInt32.size ∧
      ∃ r : MatchResult, wrappingMatch.play = .ok r ∧
        MatchConfig.play { wrappingMatch with parallel := false } = .ok r ∧
        r.games.length = 4 ∧ r.games.countP (·.aIsRed) = 2 ∧
        (∃ g, r.games[2]? = some g ∧ PlayedGame.random 2 true 1 = .ok g) ∧
        ∀ parallel course,
          Relation.ReflTransGen (Course.Step parallel) (.start wrappingMatch) course →
          course.isOver = true → course.reported.Perm r.games := by
  have hsize : 2 * wrappingMatch.gamesPerSide < UInt32.size := by decide
  obtain ⟨r, hyields, hplay, hcourse⟩ := wrappingMatch.play_anyCourse hsize
  refine ⟨hsize, r, hplay true, hplay false, hyields.length, hyields.red, ?_, ?_⟩
  · obtain ⟨g, hg, -, -, hrandom⟩ := hyields.game 2 (by decide)
    have hseed : UInt64.ofNat (wrappingMatch.baseSeed.toNat + 2 * 2) = 1 := by decide
    have heven : decide (2 % 2 = 0) = true := by decide
    rw [hseed, heven] at hrandom
    exact ⟨g, hg, hrandom⟩
  · intro parallel course h hover
    exact ((hcourse parallel course h).2.2 hover).2.1

end UltimateTicTacToe
