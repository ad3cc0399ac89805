import Handover.Proofs.CacheRound
import Handover.Proofs.JobRound

/-!
Contract: what a walk through the pages of a store lists.

A walk begins after the row id 0 and goes on after the last row of each page. So its pages are
the wanted rows cut into pieces, in the order of their ids, whatever rows lie between them.

The two ends of the key space are the exceptions. No page begins before the row id 1, so a row
with the id 0 is never listed. And nothing comes after the largest id, so a walk that has listed
its row lists that row over and over.

Owns: the pages of a walk, the rows that each of them holds, which rows a walk visits; and that
the stages of a takeover walk through the stores in this way.
-/

set_option autoImplicit false

namespace Handover

/-! ## Walks -/

section Walk

variable {α : Type} [Keyed α RowId]

/-- The row id after which a listing goes on: that of the last row of the page. -/
def resumed (after : RowId) (page : List α) : RowId := (page.getLast?.map key).getD after

/-- The row id after which a walk lists its page with the number, counted from 0. -/
def cursor (list : RowId → List α) : Nat → RowId
  | 0 => 0
  | number + 1 => resumed (cursor list number) (list (cursor list number))

def walkPage (list : RowId → List α) (number : Nat) : List α := list (cursor list number)

/-- A walk lists the row before it ends, which it does with the first empty page. -/
def Visits (list : RowId → List α) (row : α) : Prop :=
  ∃ number, (∀ earlier < number, walkPage list earlier ≠ []) ∧ row ∈ walkPage list number

theorem resumed_of_getLast? {after : RowId} {page : List α} {last : α}
    (isLast : page.getLast? = some last) : resumed after page = key last := by
  rw [resumed, isLast]
  rfl

/-- After an empty page there are only empty pages. -/
theorem walkPage_eq_nil_of_le {list : RowId → List α} {number later : Nat} (le : number ≤ later)
    (ended : walkPage list number = []) : walkPage list later = [] := by
  induction le with
  | refl => exact ended
  | step _ inductionHypothesis =>
      unfold walkPage at inductionHypothesis ⊢
      rw [cursor, inductionHypothesis]
      exact inductionHypothesis

theorem visits_iff_exists {list : RowId → List α} {row : α} :
    Visits list row ↔ ∃ number, row ∈ walkPage list number := by
  constructor
  · rintro ⟨number, -, listed⟩
    exact ⟨number, listed⟩
  · rintro ⟨number, listed⟩
    refine ⟨number, fun earlier before ended => ?_, listed⟩
    rw [walkPage_eq_nil_of_le (Nat.le_of_lt before) ended] at listed
    exact List.not_mem_nil listed

end Walk

/-! ## Listings of a table -/

namespace Table

variable {α : Type} [Keyed α RowId]

/-- The wanted rows from the id on that follows `after`, ascending. -/
def wantedAfter (table : Table α) (wanted : α → Bool) (after : RowId) : List α :=
  table.rows.filter fun row => decide (after.following ≤ key row) && wanted row

/-- The first wanted rows from the id on that follows `after`. -/
def firstWanted (table : Table α) (wanted : α → Bool) (limit : Nat) (after : RowId) : List α :=
  (table.wantedAfter wanted after).take limit

/-- The wanted rows that have the largest row id: one or none. -/
def wantedLast (table : Table α) (wanted : α → Bool) : List α :=
  (table.wantedAfter wanted 0).filter fun row => key row == RowId.last

variable {table : Table α} {wanted : α → Bool} {after : RowId} {row : α} {limit : Nat}

theorem mem_wantedAfter :
    row ∈ table.wantedAfter wanted after ↔ row ∈ table ∧ after.following ≤ key row ∧ wanted row = true := by
  simp [wantedAfter, mem_def]

/-- From the beginning on every wanted row is listed but one with the id 0. -/
theorem mem_wantedAfter_zero :
    row ∈ table.wantedAfter wanted 0 ↔ row ∈ table ∧ wanted row = true ∧ key row ≠ 0 := by
  rw [mem_wantedAfter, RowId.following_le_iff (by decide), Fin.pos_iff_ne_zero]
  tauto

theorem ordered_wantedAfter (table : Table α) (wanted : α → Bool) (after : RowId) :
    (table.wantedAfter wanted after).Pairwise fun left right => key left < key right :=
  table.ordered.filter _

/-- Below the largest id a listing leaves out just the rows up to where it begins. -/
theorem wantedAfter_of_lt_last (room : after < RowId.last) :
    table.wantedAfter wanted after =
      (table.wantedAfter wanted 0).filter fun row => decide (after < key row) := by
  unfold wantedAfter
  rw [List.filter_filter]
  refine List.filter_congr fun row _ => ?_
  have opened : (0 : RowId).following ≤ key row ↔ 0 < key row := RowId.following_le_iff (by decide)
  have begun : after.following ≤ key row ↔ after < key row := RowId.following_le_iff room
  by_cases ahead : after < key row
  · have positive : 0 < key row := Fin.lt_of_le_of_lt (Fin.zero_le _) ahead
    simp [opened, begun, ahead, positive]
  · simp [begun, ahead]

/-- After the largest id the row with that id is listed once more. -/
theorem wantedAfter_last : table.wantedAfter wanted RowId.last = table.wantedLast wanted := by
  unfold wantedLast wantedAfter
  rw [List.filter_filter]
  refine List.filter_congr fun row _ => ?_
  have onlyLast : RowId.last ≤ key row ↔ key row = RowId.last :=
    ⟨fun reached => Fin.le_antisymm (key row).le_last reached,
      fun same => same ▸ Fin.le_refl _⟩
  have opened : (0 : RowId).following ≤ RowId.last := by decide
  by_cases isLast : key row = RowId.last <;> simp [RowId.following_last, onlyLast, isLast, opened]

theorem key_of_mem_wantedLast (member : row ∈ table.wantedLast wanted) : key row = RowId.last :=
  eq_of_beq (List.mem_filter.1 member).2

theorem length_wantedLast_le : (table.wantedLast wanted).length ≤ 1 := by
  have ordered : (table.wantedLast wanted).Pairwise fun left right => key left < key right :=
    (ordered_wantedAfter table wanted 0).filter _
  refine Nat.le_of_not_lt fun several => ?_
  have before := List.pairwise_iff_getElem.1 ordered 0 1 (Nat.lt_of_succ_lt several) several Nat.zero_lt_one
  rw [key_of_mem_wantedLast (List.getElem_mem _), key_of_mem_wantedLast (List.getElem_mem _)] at before
  exact Fin.lt_irrefl _ before

/-- A listing that goes on after one of the wanted rows lists what comes behind it; when that
is nothing, it lists the row with the largest id, if that one is wanted. -/
theorem wantedAfter_key {front rest : List α} (split : table.wantedAfter wanted 0 = front ++ row :: rest) :
    table.wantedAfter wanted (key row) = if rest = [] then table.wantedLast wanted else rest := by
  have ascending := ordered_wantedAfter table wanted 0
  rw [split] at ascending
  rcases Fin.lt_or_eq_of_le (key row).le_last with room | isLast
  · rw [wantedAfter_of_lt_last room, split, filter_behind ascending]
    split
    case isTrue nothing =>
      rw [wantedLast, split, nothing, eq_comm, List.filter_eq_nil_iff]
      intro other member
      subst nothing
      have below := Fin.lt_of_le_of_lt (key_le_of_ascending ascending member) room
      simpa using Fin.ne_of_lt below
    case isFalse => rfl
  · have nothing : rest = [] := List.eq_nil_iff_forall_not_mem.2 fun other member => by
      have beyond := (List.pairwise_cons.1 (List.pairwise_append.1 ascending).2.1).1 other member
      rw [isLast] at beyond
      exact absurd (key other).le_last (Fin.not_le.2 beyond)
    rw [if_pos nothing, isLast, wantedAfter_last]

/-! ## The pages of a walk -/

variable (positive : 0 < limit)

include positive

/-- Where a walk stands: the wanted rows are cut into pieces as large as a page. Behind the
last piece there is only the row with the largest id, if it is wanted. -/
theorem wantedAfter_cursor (number : Nat) :
    table.wantedAfter wanted (cursor (table.firstWanted wanted limit) number) =
      if number * limit < (table.wantedAfter wanted 0).length
      then (table.wantedAfter wanted 0).drop (number * limit) else table.wantedLast wanted := by
  induction number with
  | zero =>
      rw [Nat.zero_mul, cursor]
      split
      case isTrue => rfl
      case isFalse none =>
        have empty : table.wantedAfter wanted 0 = [] :=
          List.eq_nil_of_length_eq_zero (Nat.eq_zero_of_not_pos none)
        rw [wantedLast, empty, List.filter_nil]
  | succ number inductionHypothesis =>
      rw [cursor]
      generalize cursor (table.firstWanted wanted limit) number = after at inductionHypothesis ⊢
      rw [firstWanted, inductionHypothesis]
      split
      case isTrue inside =>
        have listed : ((table.wantedAfter wanted 0).drop (number * limit)).take limit ≠ [] := by
          rw [Ne, List.take_eq_nil_iff, List.drop_eq_nil_iff]
          omega
        obtain ⟨last, isLast⟩ := Option.ne_none_iff_exists'.1 (mt List.getLast?_eq_none_iff.1 listed)
        obtain ⟨front, page⟩ := split_behind_page isLast
        have behind : table.wantedAfter wanted 0 =
            ((table.wantedAfter wanted 0).take (number * limit) ++ front) ++
              last :: (table.wantedAfter wanted 0).drop ((number + 1) * limit) := by
          conv_lhs => rw [← List.take_append_drop (number * limit) (table.wantedAfter wanted 0), page]
          rw [List.drop_drop, Nat.succ_mul, List.append_assoc]
        rw [resumed_of_getLast? isLast, wantedAfter_key behind]
        by_cases ended : (table.wantedAfter wanted 0).length ≤ (number + 1) * limit
        · rw [if_pos (List.drop_eq_nil_iff.2 ended), if_neg (Nat.not_lt.2 ended)]
        · rw [if_neg (mt List.drop_eq_nil_iff.1 ended), if_pos (Nat.lt_of_not_le ended)]
      case isFalse past =>
        have still : ¬ (number + 1) * limit < (table.wantedAfter wanted 0).length := by
          rw [Nat.succ_mul]
          omega
        rw [if_neg past] at inductionHypothesis
        rw [if_neg still]
        cases isLast : ((table.wantedLast wanted).take limit).getLast? with
        | none => rw [resumed, isLast]; exact inductionHypothesis
        | some last =>
            have largest := key_of_mem_wantedLast (List.mem_of_mem_take (List.mem_of_getLast? isLast))
            rw [resumed_of_getLast? isLast, largest, wantedAfter_last]

/-- The pages of a walk: the pieces of the wanted rows, and behind them the row with the
largest id. -/
theorem walkPage_eq (number : Nat) :
    walkPage (table.firstWanted wanted limit) number =
      if number * limit < (table.wantedAfter wanted 0).length
      then ((table.wantedAfter wanted 0).drop (number * limit)).take limit
      else table.wantedLast wanted := by
  rw [walkPage, firstWanted, wantedAfter_cursor positive]
  split
  case isTrue => rfl
  case isFalse => exact List.take_of_length_le (Nat.le_trans length_wantedLast_le positive)

/-- A walk visits all wanted rows but one with the id 0. -/
theorem visits_firstWanted :
    Visits (table.firstWanted wanted limit) row ↔ row ∈ table ∧ wanted row = true ∧ key row ≠ 0 := by
  rw [visits_iff_exists, ← mem_wantedAfter_zero]
  constructor
  · rintro ⟨number, listed⟩
    rw [walkPage_eq positive] at listed
    split at listed
    · exact List.mem_of_mem_drop (List.mem_of_mem_take listed)
    · exact List.mem_of_mem_filter listed
  · intro member
    obtain ⟨index, inside, rfl⟩ := List.getElem_of_mem member
    refine ⟨index / limit, ?_⟩
    have begins : index / limit * limit ≤ index := Nat.div_mul_le_self index limit
    have place : index - index / limit * limit < limit := by
      have remainder := Nat.mod_lt index positive
      have parts := Nat.div_add_mod' index limit
      omega
    rw [walkPage_eq positive, if_pos (Nat.lt_of_le_of_lt begins inside)]
    refine List.mem_take_iff_getElem.2 ⟨index - index / limit * limit, ?_, ?_⟩
    · rw [List.length_drop]
      omega
    · rw [List.getElem_drop]
      congr 1
      omega

end Table

/-! ## Walks through the stores -/

section Stores

variable {owner : Address} {limit : Nat} (positive : 0 < limit)

include positive

theorem Jobs.visits_page {jobs : Jobs} {statuses : List JobStatus} {job : Job} :
    Visits (fun after => jobs.page after statuses owner limit) job ↔
      job ∈ jobs ∧ (job.owner = owner ∧ job.status ∈ statuses) ∧ job.id ≠ 0 := by
  have listed : (fun after => jobs.page after statuses owner limit) =
      jobs.firstWanted (fun job => job.owner == owner && statuses.contains job.status) limit := by
    funext after
    simp only [Jobs.page, Table.firstWanted, Table.wantedAfter, Bool.and_assoc]
    rfl
  rw [listed, Table.visits_firstWanted positive, Bool.and_eq_true, beq_iff_eq, List.contains_iff_mem]
  exact Iff.rfl

theorem Cache.visits_page {cache : Cache} {stage : Option Stage} {group : Option String} {row : CacheRow} :
    Visits (fun after => cache.page after owner stage group limit) row ↔
      row ∈ cache ∧ (row.owner = owner ∧ (∀ wanted ∈ stage, row.stage = wanted.code) ∧
        ∀ wanted ∈ group, row.group = some wanted) ∧ row.id ≠ 0 := by
  have listed : (fun after => cache.page after owner stage group limit) =
      cache.firstWanted (fun row => row.owner == owner &&
        (stage.all (fun wanted => row.stage == wanted.code) &&
          group.all fun wanted => row.group == some wanted)) limit := by
    funext after
    simp only [Cache.page, Table.firstWanted, Table.wantedAfter, Bool.and_assoc]
    rfl
  rw [listed, Table.visits_firstWanted positive]
  simp only [Bool.and_eq_true, beq_iff_eq, Option.all_eq_true]
  exact Iff.rfl

end Stores

namespace Takeover

open Coordinator (TaskId)

/-! ## Walks of a takeover -/

section Stages

variable {id : TaskId} {chances : Chances} {settings : Settings} {node : Address}

/-- The job stage begins its listing after the row id 0. -/
theorem opening_begins (session : Session) :
    (round settings node .opening).Leads id chances session fun next _ _ =>
      ∀ after tally, next = .jobPage after tally → after = 0 := by
  apply (opens_outcomes _ _ _ session).mono
  rintro next _ last _ ⟨-, outcome⟩ after tally rfl
  rcases outcome with begun | impossible
  · split at begun <;> cases begun
    rfl
  · cases impossible

theorem opened_begins (jobs : Tally) (session : Session) :
    (round settings node (.opened jobs)).Leads id chances session fun next _ _ =>
      ∀ jobs after tally, next = .cachePage jobs after tally → after = 0 := by
  apply (opens_outcomes _ _ _ session).mono
  rintro next _ last _ ⟨-, outcome⟩ jobs after tally rfl
  rcases outcome with begun | impossible
  · split at begun <;> cases begun
    rfl
  · cases impossible

/-- A round of the job stage goes on after the page that it lists. The stage ends with an empty
page, or because a call is refused. -/
theorem jobPage_resumes (after : RowId) (tally : Tally) (session : Session) :
    (round settings node (.jobPage after tally)).Leads id chances session fun next made _ =>
      let page := session.world.jobs.page after JobStatus.unfinished node settings.pageSize
      (page ≠ [] ∧ ∃ later, next = .jobPage (resumed after page) later) ∨
        ((page = [] ∨ Broke made) ∧ ∃ jobs, next = .opened jobs) := by
  apply (orElse_leads (jobRound_leads after tally session) _).mono
  rintro next made last - (played | ⟨rfl, fault, played⟩)
  · cases played with
    | clear empty nothing => exact .inr ⟨.inl empty, _, rfl⟩
    | left empty something => exact .inr ⟨.inl empty, _, rfl⟩
    | page isLast hands =>
        refine .inl ⟨List.ne_nil_of_mem (List.mem_of_getLast? isLast), ?_⟩
        rw [resumed_of_getLast? isLast]
        exact ⟨_, rfl⟩
  · cases played with
    | broke _ broke calls => exact .inr ⟨.inr broke, _, rfl⟩

theorem cachePage_resumes (jobs : Tally) (after : RowId) (tally : Tally) (session : Session) :
    (round settings node (.cachePage jobs after tally)).Leads id chances session fun next made _ =>
      let page := session.world.cache.page after node none none settings.pageSize
      (page ≠ [] ∧ ∃ later, next = .cachePage jobs (resumed after page) later) ∨
        ((page = [] ∨ Broke made) ∧ ∃ cache, next = .closing jobs cache) := by
  apply (orElse_leads (cacheRound_leads jobs after tally session) _).mono
  rintro next made last - (played | ⟨rfl, fault, played⟩)
  · cases played with
    | clear empty nothing => exact .inr ⟨.inl empty, _, rfl⟩
    | left empty something => exact .inr ⟨.inl empty, _, rfl⟩
    | page isLast deals hands all =>
        refine .inl ⟨List.ne_nil_of_mem (List.mem_of_getLast? isLast), ?_⟩
        rw [resumed_of_getLast? isLast]
        exact ⟨_, rfl⟩
  · cases played with
    | broke _ broke calls noMoves => exact .inr ⟨.inr broke, _, rfl⟩

end Stages

/-- What the walks through both stores visit, at pages of a size. -/
structure Walks (limit : Nat) : Prop where
  /-- A walk visits all jobs of the owner in one of the statuses but one with the id 0. -/
  jobs (jobs : Jobs) (statuses : List JobStatus) (owner : Address) (job : Job) :
    Visits (fun after => jobs.page after statuses owner limit) job ↔
      job ∈ jobs ∧ (job.owner = owner ∧ job.status ∈ statuses) ∧ job.id ≠ 0
  /-- A walk visits all rows of the owner, stage and group but one with the id 0. -/
  rows (cache : Cache) (owner : Address) (stage : Option Handover.Stage) (group : Option String)
    (row : CacheRow) :
    Visits (fun after => cache.page after owner stage group limit) row ↔
      row ∈ cache ∧ (row.owner = owner ∧ (∀ wanted ∈ stage, row.stage = wanted.code) ∧
        ∀ wanted ∈ group, row.group = some wanted) ∧ row.id ≠ 0
  /-- The stages of a takeover walk: they begin after the row id 0, … -/
  begin (id : TaskId) (chances : Chances) (settings : Settings) (node : Address) (jobs : Tally)
    (session : Session) :
    (round settings node .opening).Leads id chances session (fun next _ _ =>
      ∀ after tally, next = .jobPage after tally → after = 0) ∧
    (round settings node (.opened jobs)).Leads id chances session fun next _ _ =>
      ∀ jobs after tally, next = .cachePage jobs after tally → after = 0
  /-- … and go on after each page until one is empty or a call is refused. -/
  resume (id : TaskId) (chances : Chances) (settings : Settings) (node : Address) (jobs : Tally)
    (after : RowId) (tally : Tally) (session : Session) :
    (round settings node (.jobPage after tally)).Leads id chances session (fun next made _ =>
      let page := session.world.jobs.page after JobStatus.unfinished node settings.pageSize
      (page ≠ [] ∧ ∃ later, next = .jobPage (resumed after page) later) ∨
        ((page = [] ∨ Broke made) ∧ ∃ jobs, next = .opened jobs)) ∧
    (round settings node (.cachePage jobs after tally)).Leads id chances session fun next made _ =>
      let page := session.world.cache.page after node none none settings.pageSize
      (page ≠ [] ∧ ∃ later, next = .cachePage jobs (resumed after page) later) ∨
        ((page = [] ∨ Broke made) ∧ ∃ cache, next = .closing jobs cache)

theorem walks_visit {limit : Nat} (positive : 0 < limit) : Walks limit where
  jobs _ _ _ _ := Jobs.visits_page positive
  rows _ _ _ _ _ := Cache.visits_page positive
  begin _ _ _ _ jobs session := ⟨opening_begins session, opened_begins jobs session⟩
  resume _ _ _ _ jobs after tally session :=
    ⟨jobPage_resumes after tally session, cachePage_resumes jobs after tally session⟩

/-- Two unfinished jobs of one node, with the smallest row id and the largest. -/
private def atEnds : World :=
  { World.initial with
    members := .ofList [(⟨"b:1"⟩, .heardAt ⟨0, 0⟩ 1)]
    jobs := .ofList
      [⟨0, "i", ⟨"a:1"⟩, .running, .cron, none⟩, ⟨.last, "j", ⟨"a:1"⟩, .running, .cron, none⟩] }

/-- The walk visits the job with the largest row id. -/
theorem walks_visit_largest :
    Walks 1 ∧ Visits (fun after => atEnds.jobs.page after JobStatus.unfinished ⟨"a:1"⟩ 1)
      ⟨.last, "j", ⟨"a:1"⟩, .running, .cron, none⟩ := by
  have walks : Walks 1 := walks_visit Nat.one_pos
  refine ⟨walks, (walks.jobs _ _ _ _).2 ⟨?_, ⟨rfl, ?_⟩, ?_⟩⟩
  · exact List.mem_cons_of_mem _ List.mem_cons_self
  · decide
  · decide

/-- The walk does not visit the job with the row id 0. So a takeover in which no call is refused
leaves the job with its dead node, and reports that nothing is left. -/
theorem smallest_unvisited :
    (⟨0, "i", ⟨"a:1"⟩, .running, .cron, none⟩ : Job) ∈ atEnds.jobs ∧
    ¬ Visits (fun after => atEnds.jobs.page after JobStatus.unfinished ⟨"a:1"⟩ 1)
        ⟨0, "i", ⟨"a:1"⟩, .running, .cron, none⟩ ∧
    ∃ report after,
      Reaches 0 .calm default ⟨"a:1"⟩ .opening (.opening (.initial default atEnds))
        (.finished report) after ∧
      report.leftover = false ∧
      (⟨0, "i", ⟨"a:1"⟩, .running, .cron, none⟩ : Job) ∈ after.world.jobs := by
  refine ⟨List.mem_cons_self, fun visits => ?_, _, _, ⟨6, rfl⟩, rfl, List.mem_cons_self⟩
  exact ((Jobs.visits_page Nat.one_pos).1 visits).2.2 rfl

end Takeover

end Handover
