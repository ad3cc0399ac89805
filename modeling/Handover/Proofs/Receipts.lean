import Handover.Proofs.Evenness
import Handover.Proofs.Fate
import Handover.Proofs.Parting

/-!
Contract: who receives how many jobs when pages of jobs are handed out without weights.

Owns: the count of what moves give to a node; that it is the count of the rows which
have the node as their new owner; the moves of a page that is split evenly, kind by
kind; and the share of each destination over several such pages.

A row that is named once goes where its only move says. So rows can be counted by the
moves, call by call, and the order of the calls plays no part.
-/

set_option autoImplicit false

namespace Handover

/-! ## What moves give -/

section Received

variable {ν : Type}

/-- How many names the moves give to a node. -/
def received (moves : List (Address × List ν)) (dest : Address) : Nat :=
  (moves.map fun move => if move.1 = dest then move.2.length else 0).sum

@[simp] theorem received_nil (dest : Address) : received ([] : List (Address × List ν)) dest = 0 := rfl

theorem received_cons (move : Address × List ν) (moves : List (Address × List ν)) (dest : Address) :
    received (move :: moves) dest =
      (if move.1 = dest then move.2.length else 0) + received moves dest := rfl

theorem received_append (first second : List (Address × List ν)) (dest : Address) :
    received (first ++ second) dest = received first dest + received second dest := by
  simp [received]

theorem received_flatMap {α : Type} (pieces : List α) (moves : α → List (Address × List ν))
    (dest : Address) :
    received (pieces.flatMap moves) dest = (pieces.map fun piece => received (moves piece) dest).sum := by
  induction pieces with
  | nil => rfl
  | cons piece pieces inductionHypothesis =>
      rw [List.flatMap_cons, received_append, inductionHypothesis, List.map_cons, List.sum_cons]

/-- Moves of nothing give nothing. -/
theorem received_filter (moves : List (Address × List ν)) (dest : Address) :
    received (moves.filter fun (_, names) => !names.isEmpty) dest = received moves dest := by
  induction moves with
  | nil => rfl
  | cons move moves inductionHypothesis =>
      obtain ⟨node, names⟩ := move
      cases names <;> simp [received_cons, inductionHypothesis]

variable [BEq ν] [LawfulBEq ν] {moves : List (Address × List ν)}

/-- A row that is named once goes where the move that names it says. -/
theorem newOwner_eq_some_iff (distinct : (movedNames moves).Nodup) {name : ν} {dest : Address} :
    newOwner moves name = some dest ↔ ∃ names, (dest, names) ∈ moves ∧ name ∈ names := by
  refine ⟨exists_move_of_newOwner, ?_⟩
  rintro ⟨names, member, named⟩
  obtain ⟨before, behind, rfl⟩ := List.append_of_mem member
  rw [movedNames_append] at distinct
  have behindDistinct : (names ++ movedNames behind).Nodup := (List.nodup_append.1 distinct).2.1
  have notAgain : name ∉ movedNames behind :=
    fun again => (List.nodup_append.1 behindDistinct).2.2 name named name again rfl
  have here : newOwner ((dest, names) :: behind) name =
      (newOwner behind name).or (if names.contains name then some dest else none) := rfl
  rw [newOwner_append, here, newOwner_eq_none_iff.2 notAgain]
  simp [named]

/-- The rows that have a node for their new owner are as many as the moves gave it. -/
theorem countP_newOwner (distinct : (movedNames moves).Nodup) (dest : Address) :
    ((movedNames moves).countP fun name => decide (newOwner moves name = some dest)) =
      received moves dest := by
  induction moves with
  | nil => rfl
  | cons move moves inductionHypothesis =>
      obtain ⟨node, names⟩ := move
      have split : movedNames ((node, names) :: moves) = names ++ movedNames moves := rfl
      rw [split] at distinct ⊢
      obtain ⟨_, laterDistinct, apart⟩ := List.nodup_append.1 distinct
      have step : ∀ name, newOwner ((node, names) :: moves) name =
          (newOwner moves name).or (if names.contains name then some node else none) :=
        fun _ => rfl
      have now : (names.countP fun name =>
          decide (newOwner ((node, names) :: moves) name = some dest)) =
            if node = dest then names.length else 0 := by
        have here : ∀ name ∈ names, newOwner ((node, names) :: moves) name = some node := by
          intro name named
          have notLater : newOwner moves name = none :=
            newOwner_eq_none_iff.2 fun again => apart name named name again rfl
          rw [step, notLater]
          simp [named]
        rw [List.countP_congr (q := fun _ => decide (node = dest))
          (fun name named => by simp [here name named])]
        by_cases same : node = dest <;> simp [same]
      have later : ((movedNames moves).countP fun name =>
          decide (newOwner ((node, names) :: moves) name = some dest)) = received moves dest := by
        rw [← inductionHypothesis laterDistinct]
        refine List.countP_congr fun name named => ?_
        have notNow : name ∉ names := fun here => apart name here name named rfl
        simp [step, notNow]
      rw [List.countP_append, now, later, received_cons]

end Received

/-! ## An even split -/

section Even

variable {ν : Type}

theorem slices_map_length (sizes : List Nat) (items : List ν) (enough : sizes.sum ≤ items.length) :
    (slices sizes items).1.map List.length = sizes := by
  induction sizes generalizing items with
  | nil => rfl
  | cons size sizes inductionHypothesis =>
      rw [List.sum_cons] at enough
      have later : sizes.sum ≤ (items.drop size).length := by
        rw [List.length_drop]
        omega
      have first : (items.take size).length = size := by
        rw [List.length_take]
        omega
      simp only [slices, List.map_cons, inductionHypothesis _ later, first]

/-- Without weights all is left for the even pass. -/
theorem twoPasses_unweighted (nodes : List Address) (items : List ν) :
    twoPasses nodes (fun _ => 0) items =
      nodes.zip (slices ((evenShares nodes items.length).map Prod.snd) items).1 := by
  have nothing : ∀ items : List ν, slices (nodes.map fun _ => 0) items = (nodes.map fun _ => [], items) := by
    induction nodes with
    | nil => exact fun _ => rfl
    | cons node nodes inductionHypothesis =>
        intro items
        rw [List.map_cons, slices, List.drop_zero, inductionHypothesis]
        rfl
  have prefixed : ∀ lists : List (List ν), lists.length = nodes.length →
      List.zipWith (· ++ ·) (nodes.map fun _ => []) lists = lists := by
    intro lists sameLength
    apply List.ext_getElem
    · simp [sameLength]
    · intro position _ _
      simp
  unfold twoPasses
  simp only [nothing]
  rw [prefixed]
  rw [slices_length, List.length_map]
  simp [evenShares]

theorem received_zip {nodes : List Address} (distinct : nodes.Nodup) {lists : List (List ν)}
    (sameLength : lists.length = nodes.length) (position : Nat) (inside : position < nodes.length) :
    received (nodes.zip lists) nodes[position] = lists[position].length := by
  induction nodes generalizing lists position with
  | nil => exact absurd inside (Nat.not_lt_zero _)
  | cons node nodes inductionHypothesis =>
      obtain ⟨first, lists, rfl⟩ := List.exists_cons_of_length_eq_add_one sameLength
      obtain ⟨fresh, distinctLater⟩ := List.nodup_cons.1 distinct
      have sameLater : lists.length = nodes.length := Nat.succ_inj.1 sameLength
      rw [List.zip_cons_cons, received_cons]
      cases position with
      | zero =>
          have notAgain : received (nodes.zip lists) node = 0 := by
            refine List.sum_eq_zero fun count member => ?_
            obtain ⟨move, inZip, rfl⟩ := List.mem_map.1 member
            have apart : move.1 ≠ node := fun same => fresh (same ▸ (List.of_mem_zip inZip).1)
            rw [if_neg apart]
          simp [notAgain]
      | succ position =>
          have insideLater : position < nodes.length := Nat.lt_of_succ_lt_succ inside
          have apart : node ≠ nodes[position] := fun same => fresh (same ▸ List.getElem_mem _)
          simp [apart, inductionHypothesis distinctLater sameLater position insideLater]

/-- Without weights each destination receives its even share. -/
theorem received_unweighted {nodes : List Address} (ordered : nodes.Pairwise (· < ·))
    (items : List ν) (position : Nat) (inside : position < nodes.length) :
    received (distribute items none nodes).assignments nodes[position] =
      evenShare nodes.length items.length position := by
  have some : nodes ≠ [] := List.ne_nil_of_length_pos (Nat.zero_lt_of_lt inside)
  have distinct := Address.nodup_of_ordered ordered
  have sizes : (slices ((evenShares nodes items.length).map Prod.snd) items).1.map List.length =
      (List.range nodes.length).map (evenShare nodes.length items.length) := by
    rw [slices_map_length _ _ (Nat.le_of_eq (sum_evenShares some _)), evenShares_map_snd]
  have sameLength : (slices ((evenShares nodes items.length).map Prod.snd) items).1.length =
      nodes.length := by
    simpa using congrArg List.length sizes
  unfold distribute
  rw [Address.distinct_of_ordered ordered]
  split
  case h_1 none => exact absurd rfl some
  case h_2 =>
    rw [received_filter]
    simp only [Option.map_none, Option.getD_none, twoPasses_unweighted]
    rw [received_zip distinct sameLength position inside]
    have at_position := congrArg (fun lengths => lengths[position]?) sizes
    simpa [inside, sameLength] using at_position

end Even

/-! ## Pages of jobs -/

namespace Takeover

section Pages

variable {nodes : List Address}

/-- The moves of a page of jobs that is handed out without weights, kind by kind. -/
def pageMoves (nodes : List Address) (page : List Job) : List (Address × List RowId) :=
  (distribute (idsOfKind .cron page) none nodes).assignments ++
    (distribute (idsOfKind .backfill page) none nodes).assignments

theorem mem_pageMoves {page : List Job} {move : Address × List RowId} :
    move ∈ pageMoves nodes page ↔
      ∃ kind, move ∈ (distribute (idsOfKind kind page) none nodes).assignments := by
  rw [pageMoves, List.mem_append]
  constructor
  · rintro (cron | backfill)
    · exact ⟨.cron, cron⟩
    · exact ⟨.backfill, backfill⟩
  · rintro ⟨_ | _, member⟩
    · exact .inl member
    · exact .inr member

theorem dest_mem_of_mem_pageMoves {page : List Job} {dest : Address} {ids : List RowId}
    (member : (dest, ids) ∈ pageMoves nodes page) : dest ∈ nodes := by
  obtain ⟨kind, assigned⟩ := mem_pageMoves.1 member
  exact mem_of_mem_assignments assigned

/-- With a destination every job of the page is moved once. -/
theorem pageMoves_perm (someone : nodes ≠ []) (page : List Job) :
    (movedNames (pageMoves nodes page)).Perm (page.map Job.id) := by
  rw [pageMoves, movedNames_append]
  exact ((distribute_perm someone _ _).append (distribute_perm someone _ _)).trans
    (idsOfKind_perm page)

theorem pagesMoves_perm (someone : nodes ≠ []) (pages : List (List Job)) :
    (movedNames (pages.flatMap (pageMoves nodes))).Perm (pages.flatten.map Job.id) := by
  rw [movedNames, List.flatMap_assoc, List.map_flatten, ← List.flatMap_def]
  exact List.Perm.flatMap_left pages fun page _ => pageMoves_perm someone page

theorem mem_idsOfKind {kind : ScheduleKind} {page : List Job} {id : RowId} :
    id ∈ idsOfKind kind page ↔ ∃ job ∈ page, job.kind = kind ∧ job.id = id := by
  simp [idsOfKind, and_assoc]

/-- The moves of the jobs of one kind on several pages. -/
def kindMoves (nodes : List Address) (kind : ScheduleKind) (pages : List (List Job)) :
    List (Address × List RowId) :=
  pages.flatMap fun page => (distribute (idsOfKind kind page) none nodes).assignments

theorem kindMoves_perm (someone : nodes ≠ []) (kind : ScheduleKind) (pages : List (List Job)) :
    (movedNames (kindMoves nodes kind pages)).Perm (idsOfKind kind pages.flatten) := by
  have parts : idsOfKind kind pages.flatten = pages.flatMap (idsOfKind kind) := by
    rw [idsOfKind, List.filter_flatten, List.map_flatten, List.map_map]
    rfl
  rw [parts, movedNames, kindMoves, List.flatMap_assoc]
  exact List.Perm.flatMap_left pages fun page _ => distribute_perm someone _ _

theorem nodup_kindMoves (someone : nodes ≠ []) (kind : ScheduleKind) {pages : List (List Job)}
    (distinct : (pages.flatten.map Job.id).Nodup) :
    (movedNames (kindMoves nodes kind pages)).Nodup :=
  (kindMoves_perm someone kind pages).nodup_iff.2
    (distinct.sublist (List.filter_sublist.map Job.id))

/-- A job goes where the moves of its own kind say, since no other split names it. -/
theorem newOwner_kindMoves_iff (someone : nodes ≠ []) {pages : List (List Job)}
    (distinct : (pages.flatten.map Job.id).Nodup) {job : Job} (member : job ∈ pages.flatten)
    {dest : Address} :
    newOwner (pages.flatMap (pageMoves nodes)) job.id = some dest ↔
      newOwner (kindMoves nodes job.kind pages) job.id = some dest := by
  have allDistinct : (movedNames (pages.flatMap (pageMoves nodes))).Nodup :=
    (pagesMoves_perm someone pages).nodup_iff.2 distinct
  rw [newOwner_eq_some_iff allDistinct, newOwner_eq_some_iff (nodup_kindMoves someone _ distinct)]
  constructor
  · rintro ⟨ids, moved, named⟩
    obtain ⟨page, inPages, movedHere⟩ := List.mem_flatMap.1 moved
    obtain ⟨kind, assigned⟩ := mem_pageMoves.1 movedHere
    have split : job.id ∈ idsOfKind kind page :=
      (distribute_perm someone _ _).subset (List.mem_flatMap.2 ⟨_, assigned, named⟩)
    obtain ⟨twin, inPage, twinKind, sameId⟩ := mem_idsOfKind.1 split
    have twinIn : twin ∈ pages.flatten := List.mem_flatten.2 ⟨page, inPages, inPage⟩
    obtain rfl : twin = job := List.inj_on_of_nodup_map distinct twinIn member sameId
    exact ⟨ids, List.mem_flatMap.2 ⟨page, inPages, twinKind ▸ assigned⟩, named⟩
  · rintro ⟨ids, moved, named⟩
    obtain ⟨page, inPages, assigned⟩ := List.mem_flatMap.1 moved
    exact ⟨ids, List.mem_flatMap.2 ⟨page, inPages, mem_pageMoves.2 ⟨_, assigned⟩⟩, named⟩

/-- Of every page a destination receives its even share of the jobs of a kind. -/
theorem received_kindMoves (ordered : nodes.Pairwise (· < ·)) (kind : ScheduleKind)
    (pages : List (List Job)) (position : Nat) (inside : position < nodes.length) :
    received (kindMoves nodes kind pages) nodes[position] =
      shareOver nodes.length
        (pages.map fun page => page.countP fun job => decide (job.kind = kind)) position := by
  rw [kindMoves, received_flatMap, shareOver, List.map_map]
  refine congrArg List.sum (List.map_congr_left fun page _ => ?_)
  rw [received_unweighted ordered, Function.comp_apply, idsOfKind, List.length_map,
    ← List.countP_eq_length_filter]
  rfl

/-- As many jobs of a kind have a destination for their new owner as its even shares of the
pages come to. -/
theorem countP_kind_newOwner (ordered : nodes.Pairwise (· < ·)) {pages : List (List Job)}
    (distinct : (pages.flatten.map Job.id).Nodup) (kind : ScheduleKind) (position : Nat)
    (inside : position < nodes.length) :
    (pages.flatten.countP fun job => decide (job.kind = kind ∧
        newOwner (pages.flatMap (pageMoves nodes)) job.id = some nodes[position])) =
      shareOver nodes.length
        (pages.map fun page => page.countP fun job => decide (job.kind = kind)) position := by
  have someone : nodes ≠ [] := List.ne_nil_of_length_pos (Nat.zero_lt_of_lt inside)
  calc (pages.flatten.countP fun job => decide (job.kind = kind ∧
          newOwner (pages.flatMap (pageMoves nodes)) job.id = some nodes[position]))
      = pages.flatten.countP fun job => decide (job.kind = kind ∧
          newOwner (kindMoves nodes kind pages) job.id = some nodes[position]) := by
        refine List.countP_congr fun job member => ?_
        simp only [decide_eq_true_eq]
        refine and_congr_right fun ofKind => ?_
        rw [← ofKind]
        exact newOwner_kindMoves_iff someone distinct member
    _ = (idsOfKind kind pages.flatten).countP fun id =>
          decide (newOwner (kindMoves nodes kind pages) id = some nodes[position]) := by
        rw [idsOfKind, List.countP_map, List.countP_filter]
        refine List.countP_congr fun job _ => ?_
        simp [and_comm]
    _ = received (kindMoves nodes kind pages) nodes[position] := by
        rw [← (kindMoves_perm someone kind pages).countP_eq,
          countP_newOwner (nodup_kindMoves someone kind distinct)]
    _ = _ := received_kindMoves ordered kind pages position inside

end Pages

end Takeover

end Handover
