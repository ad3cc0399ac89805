import Handover.Proofs.Weighted

/-!
Contract: what a split goes by.

Owns: the split told through the entries of the shares, whatever their order, which files
what each node takes under its address; that it is the split that the library makes; and that
neither goes by anything but the set of the destinations and their positive shares.

An entry for a stranger, or for no items, takes nothing, so it leaves no trace in the weighted
pass. The even pass goes by what that pass leaves, and by the destinations alone.
-/

set_option autoImplicit false

namespace Handover

/-! ## Shares that count -/

/-- The shares have an entry of so many items for the node. -/
def Grants (shares : Option Shares) (node : Address) (share : Nat) : Prop :=
  ∃ table, shares = some table ∧ (node, share) ∈ table

section Shares

variable {mine yours : Option Shares} {node : Address}

/-- A positive share is one that has an entry. -/
theorem grants_iff {share : Nat} (positive : 0 < share) :
    Grants mine node share ↔ shareOf mine node = share := by
  cases mine with
  | none =>
      have nothing : shareOf none node = 0 := rfl
      rw [nothing]
      refine iff_of_false ?_ (Nat.ne_of_lt positive)
      rintro ⟨table, isTable, _⟩
      cases isTable
  | some table =>
      have listed : Grants (some table) node share ↔ (node, share) ∈ table :=
        ⟨fun ⟨_, same, member⟩ => Option.some.inj same ▸ member, fun member => ⟨table, rfl, member⟩⟩
      have asked : shareOf (some table) node = table.of node := rfl
      rw [listed, asked]
      constructor
      · exact fun member => Shares.of_eq_of_mem member
      · rintro rfl
        obtain ⟨row, member, rfl, _⟩ := Shares.exists_of_pos positive
        rwa [Shares.of_eq_of_mem member]

/-- Entries of nothing do not count. -/
theorem shareOf_eq_of_grants
    (same : ∀ share, 0 < share → (Grants mine node share ↔ Grants yours node share)) :
    shareOf mine node = shareOf yours node := by
  rcases Nat.eq_zero_or_pos (shareOf mine node) with none | positive
  · by_contra differ
    have some : 0 < shareOf yours node := Nat.pos_of_ne_zero fun zero => differ (none.trans zero.symm)
    have granted := (same _ some).2 ((grants_iff some).2 rfl)
    exact differ ((grants_iff some).1 granted)
  · have granted := (same _ positive).1 ((grants_iff positive).2 rfl)
    exact ((grants_iff positive).1 granted).symm

end Shares

/-! ## Entry by entry -/

section Entries

variable {ι : Type}

/-- Each entry takes its share from the front while items last: who took what, and what is left. -/
def serve : List (Address × Nat) → List ι → List (Address × List ι) × List ι
  | [], items => ([], items)
  | (node, share) :: rest, items =>
      let (later, left) := serve rest (items.drop share)
      ((node, items.take share) :: later, left)

/-- Files what a node takes behind what it has. To take nothing leaves no trace. -/
def file (taken : Table (Address × List ι)) (entry : Address × List ι) : Table (Address × List ι) :=
  if entry.2.isEmpty then taken
  else taken.insert (entry.1, ((taken.find? entry.1).map Prod.snd).getD [] ++ entry.2)

/-- The split told through the entries of the shares, in the order in which they come: those of
destinations are sorted, served and filed, and what is left is served evenly and filed after it. -/
def distributeByEntry (items : List ι) (entries : Option (List (Address × Nat)))
    (destinations : List Address) : Distribution ι :=
  match Address.distinct destinations with
  | [] => ⟨[], items⟩
  | nodes =>
      let weights : Shares := .ofList ((entries.getD []).filter fun entry => nodes.contains entry.1)
      let (weighted, left) := serve weights.rows items
      let (even, _) := serve (evenShares nodes left.length) left
      ⟨((weighted ++ even).foldl file ∅).rows, []⟩

/-- The entries of the shares, each once, in any order. -/
inductive Listing : Option (List (Address × Nat)) → Option Shares → Prop
  | nothing : Listing none none
  | entries {entries : List (Address × Nat)} {shares : Shares} (same : entries.Perm shares.rows) :
      Listing (some entries) (some shares)

/-- All that the entries give to a node, in order. -/
def givenTo (entries : List (Address × List ι)) (node : Address) : List ι :=
  (entries.filter fun entry => entry.1 == node).flatMap Prod.snd

section Given

variable {entries later : List (Address × List ι)} {node : Address}

theorem givenTo_append : givenTo (entries ++ later) node = givenTo entries node ++ givenTo later node := by
  rw [givenTo, List.filter_append, List.flatMap_append]
  rfl

theorem givenTo_cons (entry : Address × List ι) :
    givenTo (entry :: later) node = (if entry.1 = node then entry.2 else []) ++ givenTo later node := by
  unfold givenTo
  by_cases here : entry.1 = node <;> simp [here]

theorem givenTo_eq_nil (absent : node ∉ entries.map Prod.fst) : givenTo entries node = [] := by
  have unnamed : (entries.filter fun entry => entry.1 == node) = [] :=
    List.filter_eq_nil_iff.2 fun entry member => by
      have apart : entry.1 ≠ node := fun same => absent (same ▸ List.mem_map_of_mem member)
      simpa using apart
  rw [givenTo, unnamed, List.flatMap_nil]

/-- Where a node has one entry, it gets what that entry says. -/
theorem givenTo_of_mem (distinct : (entries.map Prod.fst).Nodup) {entry : Address × List ι}
    (member : entry ∈ entries) : givenTo entries entry.1 = entry.2 := by
  induction entries with
  | nil => exact absurd member List.not_mem_nil
  | cons head tail inductionHypothesis =>
      obtain ⟨apart, tailDistinct⟩ := List.nodup_cons.1 distinct
      rw [givenTo_cons]
      rcases List.mem_cons.1 member with rfl | inTail
      · rw [if_pos rfl, givenTo_eq_nil apart, List.append_nil]
      · have other : head.1 ≠ entry.1 := fun same => apart (same ▸ List.mem_map_of_mem inTail)
        rw [if_neg other, List.nil_append, inductionHypothesis tailDistinct inTail]

/-- Empty entries give nothing. -/
theorem givenTo_filter : givenTo (entries.filter fun entry => !entry.2.isEmpty) node = givenTo entries node := by
  rw [givenTo, List.filter_comm]
  exact flatMap_snd_filter _

/-- What two passes give is what the one gives and then what the other gives. -/
theorem givenTo_zip {nodes : List Address} (distinct : nodes.Nodup) {first second : List (List ι)}
    (firstLength : first.length = nodes.length) (secondLength : second.length = nodes.length) :
    givenTo (nodes.zip (List.zipWith (· ++ ·) first second)) node =
      givenTo (nodes.zip first) node ++ givenTo (nodes.zip second) node := by
  induction nodes generalizing first second with
  | nil => rfl
  | cons head tail inductionHypothesis =>
      obtain ⟨apart, tailDistinct⟩ := List.nodup_cons.1 distinct
      obtain ⟨slice, first, rfl⟩ := List.exists_cons_of_length_eq_add_one firstLength
      obtain ⟨other, second, rfl⟩ := List.exists_cons_of_length_eq_add_one secondLength
      have rest := inductionHypothesis tailDistinct (by simpa using firstLength) (by simpa using secondLength)
      simp only [List.zipWith_cons_cons, List.zip_cons_cons, givenTo_cons, rest]
      by_cases here : head = node
      · have absent : ∀ slices : List (List ι), givenTo (tail.zip slices) node = [] := by
          intro slices
          refine givenTo_eq_nil fun named => ?_
          obtain ⟨entry, member, same⟩ := List.mem_map.1 named
          exact apart (here ▸ same ▸ (List.of_mem_zip member).1)
        simp [here, absent]
      · simp [here]

end Given

/-! ## What is filed -/

section Filed

variable {taken left right : Table (Address × List ι)} {node : Address}

/-- No node is filed with nothing. -/
def Filled (taken : Table (Address × List ι)) : Prop := ∀ entry ∈ taken, entry.2 ≠ []

theorem givenTo_rows (taken : Table (Address × List ι)) (node : Address) :
    givenTo taken.rows node = ((taken.find? node).map Prod.snd).getD [] := by
  cases found : taken.find? node with
  | none =>
      refine givenTo_eq_nil fun named => ?_
      obtain ⟨entry, member, same⟩ := List.mem_map.1 named
      exact Table.find?_eq_none_iff.1 found entry member same
  | some entry =>
      obtain ⟨member, rfl⟩ := Table.find?_eq_some_iff.1 found
      exact givenTo_of_mem taken.nodup_keys member

/-- Where no node is filed with nothing, what each has determines what is filed. -/
theorem eq_of_givenTo_eq (leftFilled : Filled left) (rightFilled : Filled right)
    (same : ∀ node, givenTo left.rows node = givenTo right.rows node) : left = right := by
  have mem_iff : ∀ {taken : Table (Address × List ι)}, Filled taken → ∀ entry,
      entry ∈ taken ↔ entry.2 ≠ [] ∧ givenTo taken.rows entry.1 = entry.2 := by
    intro taken filled entry
    constructor
    · exact fun member => ⟨filled entry member, givenTo_of_mem taken.nodup_keys member⟩
    · rintro ⟨some, gives⟩
      rw [givenTo_rows] at gives
      cases found : taken.find? entry.1 with
      | none =>
          rw [found] at gives
          exact absurd gives.symm some
      | some other =>
          obtain ⟨member, here⟩ := Table.find?_eq_some_iff.1 found
          rw [found] at gives
          obtain ⟨name, items⟩ := other
          cases here
          cases gives
          exact member
  refine Table.ext_mem fun entry => ?_
  rw [mem_iff leftFilled, mem_iff rightFilled, same]

theorem givenTo_file (entry : Address × List ι) :
    givenTo (file taken entry).rows node =
      givenTo taken.rows node ++ if entry.1 = node then entry.2 else [] := by
  unfold file
  split
  case isTrue empty =>
    rw [List.isEmpty_iff.1 empty]
    simp
  case isFalse some =>
    rw [givenTo_rows, givenTo_rows, Table.find?_insert]
    split
    case isTrue here =>
      have same : entry.1 = node := here
      rw [same, if_pos rfl]
      rfl
    case isFalse apart =>
      have other : entry.1 ≠ node := apart
      rw [if_neg other, List.append_nil]

theorem Filled.file (filled : Filled taken) (entry : Address × List ι) : Filled (file taken entry) := by
  unfold Handover.file
  split
  case isTrue => exact filled
  case isFalse some =>
    intro other member
    rcases Table.mem_insert_iff.1 member with rfl | ⟨inside, _⟩
    · have taken : entry.2 ≠ [] := fun none => some (List.isEmpty_iff.2 none)
      simp [taken]
    · exact filled other inside

/-- Filed one after the other, each node has what the entries give it. -/
theorem givenTo_filed (entries : List (Address × List ι)) (filled : Filled taken) :
    Filled (entries.foldl Handover.file taken) ∧ ∀ node,
      givenTo (entries.foldl Handover.file taken).rows node =
        givenTo taken.rows node ++ givenTo entries node := by
  induction entries generalizing taken with
  | nil => exact ⟨filled, fun node => (List.append_nil _).symm⟩
  | cons entry entries inductionHypothesis =>
      obtain ⟨filledThen, gives⟩ := inductionHypothesis (filled.file entry)
      refine ⟨filledThen, fun node => ?_⟩
      rw [List.foldl_cons, gives, givenTo_file, givenTo_cons, List.append_assoc]

end Filed

/-! ## Serving -/

theorem serve_eq (entries : List (Address × Nat)) (items : List ι) :
    serve entries items =
      ((entries.map Prod.fst).zip (slices (entries.map Prod.snd) items).1,
        (slices (entries.map Prod.snd) items).2) := by
  induction entries generalizing items with
  | nil => rfl
  | cons entry entries inductionHypothesis =>
      simp only [serve, inductionHypothesis]
      rfl

/-- Entries of nothing take nothing. -/
theorem serve_filter (entries : List (Address × Nat)) (items : List ι) :
    let some := entries.filter fun entry => decide (0 < entry.2)
    (serve some items).2 = (serve entries items).2 ∧ ∀ node,
      givenTo (serve some items).1 node = givenTo (serve entries items).1 node := by
  induction entries generalizing items with
  | nil => exact ⟨rfl, fun _ => rfl⟩
  | cons entry entries inductionHypothesis =>
      obtain ⟨name, share⟩ := entry
      rcases Nat.eq_zero_or_pos share with rfl | positive
      · obtain ⟨sameLeft, sameGiven⟩ := inductionHypothesis items
        simpa [serve, givenTo_cons] using And.intro sameLeft sameGiven
      · obtain ⟨sameLeft, sameGiven⟩ := inductionHypothesis (items.drop share)
        simpa [serve, givenTo_cons, positive] using And.intro sameLeft sameGiven

/-! ## One split, told in two ways -/

section Split

variable {shares : Option Shares} {entries : Option (List (Address × Nat))}

theorem Listing.mem_iff (listing : Listing entries shares) (entry : Address × Nat) :
    entry ∈ entries.getD [] ↔ Grants shares entry.1 entry.2 := by
  cases listing with
  | nothing => simp [Grants]
  | entries same => simp [Grants, same.mem_iff, Table.mem_def]

theorem Listing.distinct (listing : Listing entries shares) :
    ((entries.getD []).map Prod.fst).Nodup := by
  cases listing with
  | nothing => exact .nil
  | @entries list table same => exact (same.map Prod.fst).nodup_iff.2 table.nodup_keys

/-- Of the entries of destinations just the positive shares count, in address order. -/
theorem Listing.weights_eq (listing : Listing entries shares) {nodes : List Address}
    (ordered : nodes.Pairwise (· < ·)) :
    (Table.ofList ((entries.getD []).filter fun entry => nodes.contains entry.1)).rows.filter
        (fun entry => decide (0 < entry.2)) =
      (nodes.map fun node => (node, shareOf shares node)).filter fun entry => decide (0 < entry.2) := by
  have keysOrdered : (nodes.map fun node => (node, shareOf shares node)).Pairwise
      fun first second => key first < key second := List.pairwise_map.2 ordered
  let asked : Shares := ⟨_, keysOrdered⟩
  have distinct : (((entries.getD []).filter fun entry => nodes.contains entry.1).map key).Nodup :=
    listing.distinct.sublist (List.filter_sublist.map Prod.fst)
  have same : (Table.ofList ((entries.getD []).filter fun entry => nodes.contains entry.1)).filter
      (fun entry => decide (0 < entry.2)) = asked.filter fun entry => decide (0 < entry.2) := by
    refine Table.ext_mem fun entry => ?_
    obtain ⟨node, share⟩ := entry
    rw [Table.mem_filter, Table.mem_filter, Table.mem_ofList distinct, List.mem_filter, listing.mem_iff]
    have asks : (node, share) ∈ asked ↔ node ∈ nodes ∧ shareOf shares node = share := by
      simp [asked, Table.mem_def]
    rw [asks]
    simp only [decide_eq_true_eq, List.contains_iff_mem]
    constructor
    · rintro ⟨⟨granted, among⟩, positive⟩
      exact ⟨⟨among, (grants_iff positive).1 granted⟩, positive⟩
    · rintro ⟨⟨among, granted⟩, positive⟩
      exact ⟨⟨(grants_iff positive).2 granted, among⟩, positive⟩
  exact congrArg Table.rows same

/-- The plan of a split as a table. -/
def filed (nodes : List Address) (ordered : nodes.Pairwise (· < ·)) (first second : List (List ι)) :
    Table (Address × List ι) where
  rows := (nodes.zip (List.zipWith (· ++ ·) first second)).filter fun entry => !entry.2.isEmpty
  ordered := by
    have zipped : (nodes.zip (List.zipWith (· ++ ·) first second)).Pairwise
        fun left right => key left < key right := by
      refine List.pairwise_iff_getElem.2 fun left right inLeft inRight before => ?_
      simp only [List.getElem_zip]
      exact List.pairwise_iff_getElem.1 ordered left right _ _ before
    exact zipped.filter _

/-- To file what both passes give is to put their slices together. -/
theorem foldl_file_eq_filed {nodes : List Address} (ordered : nodes.Pairwise (· < ·))
    {weighted : List (Address × List ι)} {first second : List (List ι)}
    (firstLength : first.length = nodes.length) (secondLength : second.length = nodes.length)
    (gives : ∀ node, givenTo weighted node = givenTo (nodes.zip first) node) :
    (weighted ++ nodes.zip second).foldl file ∅ = filed nodes ordered first second := by
  have nothing : Filled (∅ : Table (Address × List ι)) := fun entry member =>
    absurd member List.not_mem_nil
  obtain ⟨filled, given⟩ := givenTo_filed (weighted ++ nodes.zip second) nothing
  refine eq_of_givenTo_eq filled (fun entry member => ?_) fun node => ?_
  · simpa using (List.mem_filter.1 member).2
  · have distinct := Address.nodup_of_ordered ordered
    rw [given, givenTo_append, gives, ← givenTo_zip distinct firstLength secondLength]
    exact givenTo_filter.symm

/-- The split told entry by entry is the split, whatever the order of the entries. -/
theorem distributeByEntry_eq (listing : Listing entries shares) (items : List ι)
    (destinations : List Address) :
    distributeByEntry items entries destinations = distribute items shares destinations := by
  have ordered : (Address.distinct destinations).Pairwise (· < ·) := (Table.ofList destinations).ordered
  unfold distributeByEntry distribute
  generalize Address.distinct destinations = nodes at ordered
  cases nodes with
  | nil => rfl
  | cons head tail =>
      let nodes := head :: tail
      let weights := (Table.ofList ((entries.getD []).filter fun entry => nodes.contains entry.1)).rows
      let asked := nodes.map fun node => (node, shareOf shares node)
      let weighted := slices (nodes.map (shareOf shares)) items
      let even := (slices ((evenShares nodes weighted.2.length).map Prod.snd) weighted.2).1
      have askedServed : serve asked items = (nodes.zip weighted.1, weighted.2) := by
        simp [serve_eq, asked, weighted, Function.comp_def]
      have evenServed : (serve (evenShares nodes weighted.2.length) weighted.2).1 = nodes.zip even := by
        have names : (evenShares nodes weighted.2.length).map Prod.fst = nodes := by
          simp [evenShares, Function.comp_def]
        rw [serve_eq, names]
      -- only entries with a positive share take anything, and these are the same
      obtain ⟨weightsLeft, weightsGiven⟩ := serve_filter weights items
      obtain ⟨askedLeft, askedGiven⟩ := serve_filter asked items
      rw [listing.weights_eq ordered] at weightsLeft weightsGiven
      have left : (serve weights items).2 = weighted.2 := by
        rw [← weightsLeft, askedLeft, askedServed]
      have gives : ∀ node, givenTo (serve weights items).1 node = givenTo (nodes.zip weighted.1) node := by
        intro node
        rw [← weightsGiven, askedGiven, askedServed]
      have weightedLength : weighted.1.length = nodes.length := by simp [weighted, nodes, slices_length]
      have evenLength : even.length = nodes.length := by
        simp [even, nodes, slices_length, evenShares]
      have together := foldl_file_eq_filed ordered weightedLength evenLength gives
      have rows := congrArg Table.rows together
      rw [← evenServed, ← left] at rows
      exact congrArg (Distribution.mk · []) rows

end Split

end Entries

/-- A split goes by nothing but the set of its destinations and their positive shares. Neither
the order of the destinations nor how often each is named plays a part, nor does any other entry
of the shares, nor the order in which the entries are gone through. -/
theorem distribute_determined {ι : Type} (items : List ι) {first second : List Address}
    {mine yours : Option Shares} (sameNodes : ∀ node, node ∈ first ↔ node ∈ second)
    (sameShares : ∀ node ∈ first, ∀ share, 0 < share →
      (Grants mine node share ↔ Grants yours node share)) :
    distribute items mine first = distribute items yours second ∧
      ∀ entries, Listing entries mine →
        distributeByEntry items entries first = distribute items yours second := by
  have sameDistinct := Address.distinct_congr sameNodes
  have same : distribute items mine first = distribute items yours second := by
    have sameShare : (Address.distinct first).map (shareOf mine) =
        (Address.distinct first).map (shareOf yours) := by
      refine List.map_congr_left fun node among => shareOf_eq_of_grants ?_
      exact sameShares node (Address.mem_distinct.1 among)
    unfold distribute
    rw [← sameDistinct]
    generalize Address.distinct first = nodes at sameShare
    cases nodes with
    | nil => rfl
    | cons head tail =>
        change Distribution.mk ((twoPasses (head :: tail) (shareOf mine) items).filter _) [] =
          Distribution.mk ((twoPasses (head :: tail) (shareOf yours) items).filter _) []
        simp only [twoPasses, sameShare]
  exact ⟨same, fun entries listing => (distributeByEntry_eq listing items first).trans same⟩

/-- A stranger's nine, an entry of nothing, a node named twice and the order of the entries: none of
it counts beside two items for the one node. -/
theorem distribute_determined_beside_strangers :
    let mine : Shares := .ofList [(⟨"a"⟩, 0), (⟨"b"⟩, 2), (⟨"z"⟩, 9)]
    let yours : Shares := .ofList [(⟨"b"⟩, 2)]
    distributeByEntry [1, 2, 3, 4, 5] (some [(⟨"z"⟩, 9), (⟨"b"⟩, 2), (⟨"a"⟩, 0)])
        [⟨"b"⟩, ⟨"a"⟩, ⟨"b"⟩] = distribute [1, 2, 3, 4, 5] (some yours) [⟨"a"⟩, ⟨"b"⟩] ∧
      distribute [1, 2, 3, 4, 5] (some mine) [⟨"b"⟩, ⟨"a"⟩, ⟨"b"⟩] =
        ⟨[(⟨"a"⟩, [3, 4]), (⟨"b"⟩, [1, 2, 5])], []⟩ := by
  intro mine yours
  have sameNodes : ∀ node : Address, node ∈ [⟨"b"⟩, ⟨"a"⟩, ⟨"b"⟩] ↔ node ∈ [⟨"a"⟩, ⟨"b"⟩] := by
    intro node
    simp only [List.mem_cons, List.not_mem_nil, or_false]
    grind
  have sameShares : ∀ node ∈ ([⟨"b"⟩, ⟨"a"⟩, ⟨"b"⟩] : List Address), ∀ share, 0 < share →
      (Grants (some mine) node share ↔ Grants (some yours) node share) := by
    intro node among share positive
    rw [grants_iff positive, grants_iff positive]
    have asked : shareOf (some mine) node = shareOf (some yours) node := by
      simp only [List.mem_cons, List.not_mem_nil, or_false] at among
      rcases among with rfl | rfl | rfl <;> decide
    rw [asked]
  obtain ⟨same, byEntry⟩ := distribute_determined [1, 2, 3, 4, 5] sameNodes sameShares
  have listing : Listing (some [(⟨"z"⟩, 9), (⟨"b"⟩, 2), (⟨"a"⟩, 0)]) (some mine) :=
    .entries (by decide)
  exact ⟨byEntry _ listing, by decide⟩

end Handover
