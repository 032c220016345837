import AttrGrammar.Vocabulary
import Mathlib.Data.List.Nodup

/-!
Contract: sets of attributes that extend others.

Owns:
- the nodes of an extended set, in order: those of the set that it extends, redefined in place, and then those with
  new keywords;
- that no two nodes of an extended set share a keyword, and that each of them is found by its keyword.
-/

namespace AttrGrammar

namespace AttrSet

section Extend

variable {γ : Type} {n : Node γ} {kept nodes : List (Node γ)}

/-- Whether no two nodes share a keyword. -/
def DistinctKeywords (nodes : List (Node γ)) : Prop :=
  (nodes.map Node.keyword).Nodup

/-- A node, or the one among some nodes that has its keyword. -/
def redefined (nodes : List (Node γ)) (n : Node γ) : Node γ :=
  (nodes.find? fun m => m.keyword = n.keyword).getD n

/-- The nodes with keywords that are not among those of others. -/
def added (kept nodes : List (Node γ)) : List (Node γ) :=
  nodes.filter fun n => n.keyword ∉ kept.map Node.keyword

/-- A node is the only one with its keyword. -/
theorem find?_eq_some_of_mem (distinct : DistinctKeywords nodes) (member : n ∈ nodes) :
    (nodes.find? fun m => m.keyword = n.keyword) = some n := by
  induction nodes with
  | nil => cases member
  | cons first later inductionHypothesis =>
      obtain ⟨notLater, distinctLater⟩ := List.nodup_cons.1 distinct
      rw [List.find?_cons]
      rcases List.mem_cons.1 member with rfl | isLater
      · simp
      · have otherKeyword : first.keyword ≠ n.keyword := fun same =>
          notLater (same ▸ List.mem_map_of_mem isLater)
        rw [decide_eq_false otherKeyword]
        exact inductionHypothesis distinctLater isLater

theorem redefined_keyword (nodes : List (Node γ)) (n : Node γ) :
    (redefined nodes n).keyword = n.keyword := by
  unfold redefined
  cases found : nodes.find? fun m => m.keyword = n.keyword with
  | none => rfl
  | some m => simpa using List.find?_some found

theorem redefined_cons (first : Node γ) (later : List (Node γ)) (n : Node γ) :
    redefined (first :: later) n = if first.keyword = n.keyword then first else redefined later n := by
  unfold redefined
  rw [List.find?_cons]
  split <;> simp_all

theorem redefined_of_not_mem (other : n.keyword ∉ nodes.map Node.keyword) : redefined nodes n = n := by
  unfold redefined
  rw [List.find?_eq_none.2, Option.getD_none]
  intro m member same
  exact other (List.mem_map.2 ⟨m, member, by simpa using same⟩)

theorem map_redefined_of_others (others : ∀ m ∈ kept, m.keyword ∉ nodes.map Node.keyword) :
    kept.map (redefined nodes) = kept :=
  (List.map_congr_left fun m member => redefined_of_not_mem (others m member)).trans (List.map_id kept)

theorem map_redefined_keyword (kept nodes : List (Node γ)) :
    (kept.map (redefined nodes)).map Node.keyword = kept.map Node.keyword := by
  rw [List.map_map]
  exact List.map_congr_left fun m _ => redefined_keyword nodes m

theorem DistinctKeywords.map_redefined (distinct : DistinctKeywords kept) (nodes : List (Node γ)) :
    DistinctKeywords (kept.map (redefined nodes)) := by
  rwa [DistinctKeywords, map_redefined_keyword]

theorem DistinctKeywords.append (distinctKept : DistinctKeywords kept) (distinct : DistinctKeywords nodes)
    (others : ∀ n ∈ nodes, n.keyword ∉ kept.map Node.keyword) : DistinctKeywords (kept ++ nodes) := by
  rw [DistinctKeywords, List.map_append]
  refine List.Nodup.append distinctKept distinct fun keyword isKept isAdded => ?_
  obtain ⟨n, member, rfl⟩ := List.mem_map.1 isAdded
  exact others n member isKept

theorem put_of_mem (distinct : DistinctKeywords kept) (isKept : n.keyword ∈ kept.map Node.keyword) :
    put n kept = kept.map (redefined [n]) := by
  induction kept with
  | nil => cases isKept
  | cons first later inductionHypothesis =>
      obtain ⟨notLater, distinctLater⟩ := List.nodup_cons.1 distinct
      rw [put, List.map_cons, redefined_cons]
      by_cases isFirst : first.keyword = n.keyword
      · have others : ∀ m ∈ later, m.keyword ∉ [n].map Node.keyword := by
          rintro m member same
          rw [List.map_singleton, List.mem_singleton, ← isFirst] at same
          exact notLater (List.mem_map.2 ⟨m, member, same⟩)
        rw [if_pos isFirst, if_pos isFirst.symm, map_redefined_of_others others]
      · have isLater := (List.mem_cons.1 isKept).resolve_left fun same => isFirst same.symm
        rw [if_neg isFirst, if_neg (Ne.symm isFirst), inductionHypothesis distinctLater isLater]
        rfl

theorem put_of_not_mem (other : n.keyword ∉ kept.map Node.keyword) : put n kept = kept ++ [n] := by
  induction kept with
  | nil => rfl
  | cons first later inductionHypothesis =>
      rw [List.map_cons, List.mem_cons, not_or] at other
      rw [put, if_neg (Ne.symm other.1), inductionHypothesis other.2, List.cons_append]

/-- Nodes with distinct keywords are put among others in place of those that they redefine, or behind all of them. -/
theorem foldl_put (distinctKept : DistinctKeywords kept) (distinct : DistinctKeywords nodes) :
    nodes.foldl (fun kept n => put n kept) kept = kept.map (redefined nodes) ++ added kept nodes := by
  induction nodes generalizing kept with
  | nil =>
      rw [map_redefined_of_others (by simp)]
      exact (List.append_nil kept).symm
  | cons n later inductionHypothesis =>
      obtain ⟨notLater, distinctLater⟩ := List.nodup_cons.1 distinct
      rw [List.foldl_cons]
      by_cases isKept : n.keyword ∈ kept.map Node.keyword
      · rw [put_of_mem distinctKept isKept,
          inductionHypothesis (distinctKept.map_redefined [n]) distinctLater, List.map_map]
        congr 1
        · refine List.map_congr_left fun m _ => ?_
          rw [Function.comp_apply, redefined_cons n [], redefined_cons n later]
          split
          · exact redefined_of_not_mem notLater
          · rfl
        · rw [added, added, map_redefined_keyword, List.filter_cons_of_neg (by simpa using isKept)]
      · have others : ∀ m ∈ [n], m.keyword ∉ kept.map Node.keyword := by simpa using isKept
        have distinctHere : DistinctKeywords (kept ++ [n]) := distinctKept.append (List.nodup_singleton _) others
        rw [put_of_not_mem isKept, inductionHypothesis distinctHere distinctLater, List.map_append,
          List.map_singleton, redefined_of_not_mem notLater, List.append_assoc]
        congr 1
        · refine List.map_congr_left fun m member => ?_
          have otherKeyword : n.keyword ≠ m.keyword := fun same =>
            isKept (same ▸ List.mem_map_of_mem member)
          rw [redefined_cons, if_neg otherKeyword]
        · rw [added, added, List.filter_cons_of_pos (by simpa using isKept), List.singleton_append]
          congr 1
          refine List.filter_congr fun m member => ?_
          have otherKeyword : m.keyword ≠ n.keyword := fun same =>
            notLater (same ▸ List.mem_map_of_mem member)
          simp [otherKeyword]

/-- An extended set holds the nodes that it extends, redefined in place, and then those with new keywords. -/
theorem nodes_extend {s : AttrSet γ} (distinctKept : DistinctKeywords s.nodes)
    (distinct : DistinctKeywords nodes) (name : String) :
    s.extend name nodes = ⟨name, s.nodes.map (redefined nodes) ++ added s.nodes nodes⟩ :=
  congrArg (AttrSet.mk name) (foldl_put distinctKept distinct)

/-- Putting a node among others adds no keyword but that of a node with a new one. -/
theorem keywords_put (n : Node γ) (kept : List (Node γ)) : (put n kept).map Node.keyword =
    if n.keyword ∈ kept.map Node.keyword then kept.map Node.keyword else kept.map Node.keyword ++ [n.keyword] := by
  induction kept with
  | nil => rfl
  | cons first later inductionHypothesis =>
      rw [put, List.map_cons]
      by_cases isFirst : first.keyword = n.keyword
      · rw [if_pos isFirst, isFirst, if_pos List.mem_cons_self, List.map_cons]
      · have sameIn : n.keyword ∈ first.keyword :: later.map Node.keyword ↔ n.keyword ∈ later.map Node.keyword :=
          List.mem_cons.trans (or_iff_right fun same => isFirst same.symm)
        rw [if_neg isFirst, List.map_cons, inductionHypothesis]
        simp only [sameIn]
        split <;> rfl

theorem DistinctKeywords.put (distinct : DistinctKeywords kept) (n : Node γ) :
    DistinctKeywords (AttrSet.put n kept) := by
  rw [DistinctKeywords, keywords_put]
  split
  · exact distinct
  · rename_i isNew
    exact List.Nodup.append distinct (List.nodup_singleton _) (by simpa using isNew)

theorem DistinctKeywords.foldl_put (distinct : DistinctKeywords kept) (nodes : List (Node γ)) :
    DistinctKeywords (nodes.foldl (fun kept n => AttrSet.put n kept) kept) := by
  induction nodes generalizing kept with
  | nil => exact distinct
  | cons n later inductionHypothesis => exact inductionHypothesis (distinct.put n)

theorem distinctKeywords_extend {s : AttrSet γ} (distinct : DistinctKeywords s.nodes) (name : String)
    (nodes : List (Node γ)) : DistinctKeywords (s.extend name nodes).nodes :=
  distinct.foldl_put nodes

theorem firstDuplicate?_eq_none_iff {seen : List String} : firstDuplicate? seen nodes = none ↔
    DistinctKeywords nodes ∧ ∀ n ∈ nodes, n.keyword ∉ seen := by
  induction nodes generalizing seen with
  | nil => simp [firstDuplicate?, DistinctKeywords]
  | cons n later inductionHypothesis =>
      rw [firstDuplicate?]
      split
      · rename_i isSeen
        simp [isSeen]
      · rename_i notSeen
        rw [inductionHypothesis]
        constructor
        · rintro ⟨distinct, fresh⟩
          have notLater : n.keyword ∉ later.map Node.keyword := by
            intro isLater
            obtain ⟨m, member, same⟩ := List.mem_map.1 isLater
            exact fresh m member (same ▸ List.mem_cons_self)
          refine ⟨List.nodup_cons.2 ⟨notLater, distinct⟩, List.forall_mem_cons.2 ⟨notSeen, ?_⟩⟩
          exact fun m member isSeen => fresh m member (List.mem_cons_of_mem _ isSeen)
        · rintro ⟨distinct, fresh⟩
          obtain ⟨notLater, distinctLater⟩ := List.nodup_cons.1 distinct
          refine ⟨distinctLater, fun m member isSeen => ?_⟩
          rcases List.mem_cons.1 isSeen with same | isSeen
          · exact notLater (same ▸ List.mem_map_of_mem member)
          · exact fresh m (List.mem_cons_of_mem _ member) isSeen

/-- The nodes that a set is extended with are nodes of the extended set. -/
theorem mem_extend {s : AttrSet γ} (distinctKept : DistinctKeywords s.nodes)
    (distinct : DistinctKeywords nodes) (name : String) (member : n ∈ nodes) :
    n ∈ (s.extend name nodes).nodes := by
  rw [nodes_extend distinctKept distinct]
  by_cases isKept : n.keyword ∈ s.nodes.map Node.keyword
  · obtain ⟨m, isNode, sameKeyword⟩ := List.mem_map.1 isKept
    refine List.mem_append_left _ (List.mem_map.2 ⟨m, isNode, ?_⟩)
    rw [redefined, sameKeyword, find?_eq_some_of_mem distinct member, Option.getD_some]
  · exact List.mem_append_right _ (List.mem_filter.2 ⟨member, by simpa using isKept⟩)

/-- A set can be made of nodes exactly if their keywords are distinct. -/
theorem ofNodes_eq_ok_iff {name : String} {s : AttrSet γ} :
    ofNodes name nodes = .ok s ↔ DistinctKeywords nodes ∧ s = ⟨name, nodes⟩ := by
  have noDuplicate : firstDuplicate? [] nodes = none ↔ DistinctKeywords nodes := by
    simp [firstDuplicate?_eq_none_iff]
  rw [ofNodes, ← noDuplicate]
  cases firstDuplicate? [] nodes <;> simp [eq_comm]

end Extend

end AttrSet

/-- The keywords of the sets that need no definition are distinct. -/
theorem BuiltinSet.distinctKeywords (b : BuiltinSet) : AttrSet.DistinctKeywords b.set.nodes := by
  unfold AttrSet.DistinctKeywords
  cases b <;> decide

end AttrGrammar
