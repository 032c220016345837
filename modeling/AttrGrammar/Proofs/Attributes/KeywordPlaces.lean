import AttrGrammar.Proofs.Attributes.Lists
import AttrGrammar.Proofs.Attributes.Starts
import AttrGrammar.Proofs.Attributes.Walks
import AttrGrammar.Proofs.Lexing.Layout
import AttrGrammar.Proofs.Trees.RoundTrip

/-!
Contract: the places of the attributes in a source are those of their keywords, which stand outside all brackets, in
order.

Owns:
- the words that the attributes of a list start with, as a sublist of the trees of the list;
- tokens of a source outside all brackets;
- the places of keywords, collected attribute by attribute, and what holds of them at every step;
- the places of the keywords of all attributes in a source.
-/

namespace AttrGrammar

open Cursor Reader

/-! ## Lists -/

/-- The attributes of a list with the words that are their keywords, which are among the trees of the list in order. -/
structure KeywordsAmong (trees : List Tree) (entries : List (Token × Attribute Parsed)) : Prop where
  areKeywords : ∀ entry ∈ entries, entry.1.IsKeywordOf entry.2
  sublist : ((entries.map Prod.fst).map Tree.token).Sublist trees

theorem keywordsAmong_nil (trees : List Tree) : KeywordsAmong trees [] where
  areKeywords := by
    intro entry member
    cases member
  sublist := List.nil_sublist trees

theorem KeywordsAmong.cons {t : Token} {a : Attribute Parsed} {later trees : List Tree}
    {entries : List (Token × Attribute Parsed)} (isKeyword : t.IsKeywordOf a)
    (among : KeywordsAmong later entries) (inTrees : later.Sublist trees) :
    KeywordsAmong (.token t :: trees) ((t, a) :: entries) where
  areKeywords := List.forall_mem_cons.2 ⟨isKeyword, among.areKeywords⟩
  sublist := (among.sublist.trans inTrees).cons_cons _

/-- The items of a list start at words among its trees, since a comma stands between them. -/
theorem exists_keywordsAmong {r : Reader Parsed} (starts : StartsAt Token.StartsParsed r) (walks : Walks r)
    (count : Nat) {c d : Cursor} {vs : List Parsed} (isRead : itemsUpTo r count c = .ok vs d) :
    ∃ entries, vs = entries.map (fun entry => Parsed.attr entry.2) ∧ KeywordsAmong c.rest entries := by
  induction count generalizing c vs with
  | zero =>
      obtain ⟨rfl, rfl⟩ := EStateM.Result.ok.inj isRead
      exact ⟨[], rfl, keywordsAmong_nil _⟩
  | succ count inductionHypothesis =>
      rcases itemsUpTo_eq_ok isRead with ⟨-, rfl, -⟩ | ⟨-, v, e, isFirst, behind⟩
      · exact ⟨[], rfl, keywordsAmong_nil _⟩
      obtain ⟨t, later, rest, a, rfl, isKeyword⟩ := starts c v e isFirst
      obtain ⟨moved, rfl, -⟩ := (walks c c.finish).reads _ e isFirst
      rw [rest]
      rcases behind with ⟨-, rfl, -⟩ | ⟨comma, others, ws, restComma, isComma, areLater, rfl⟩
      · exact ⟨[(t, a)], rfl, (keywordsAmong_nil later).cons isKeyword (List.Sublist.refl later)⟩
      obtain ⟨entries, rfl, among⟩ := inductionHypothesis areLater
      rw [rest_skip_one restComma] at among
      refine ⟨(t, a) :: entries, rfl, among.cons isKeyword ?_⟩
      -- The keyword is no comma, so that it was consumed.
      have dropped : (Tree.token t :: later).drop moved = .token comma :: others := rest ▸ restComma
      cases moved with
      | zero =>
          obtain rfl := Tree.token.inj (List.cons.inj dropped).1
          cases isComma.symm.trans isKeyword.isIdent
      | succ moved =>
          rw [List.drop_succ_cons] at dropped
          exact (List.sublist_cons_self _ others).trans (dropped ▸ List.drop_sublist moved later)

/-- The attributes of a source by a set, with their keywords among its trees. -/
theorem exists_keywordsAmong_of_parse {attrs : Grammar} (isSet : attrs.IsSet) {source : String}
    {nodes : List (Attribute Parsed)} (parsed : parseAttributes attrs source = .ok nodes) :
    ∃ trees finish entries, treesOf source = .ok (trees, finish) ∧ nodes = entries.map Prod.snd ∧
      KeywordsAmong trees entries := by
  obtain ⟨list, isList, rfl⟩ := exists_of_map_eq_ok parsed
  obtain ⟨trees, finish, d, areTrees, isWhole⟩ := Grammar.parse_eq_ok_iff.1 isList
  obtain ⟨isRead, -⟩ := whole_eq_ok_iff.1 isWhole
  rw [Grammar.read] at isRead
  obtain ⟨vs, areItems, rfl⟩ := bind_pure_eq_ok_iff.1 isRead
  rw [isSet.readItems_eq] at areItems
  obtain ⟨entries, rfl, among⟩ := exists_keywordsAmong isSet.startsAt_read attrs.walks_read trees.length areItems
  refine ⟨trees, finish, entries, areTrees, ?_, among⟩
  rw [Parsed.attributes, List.filterMap_map, ← List.filterMap_eq_map]
  rfl

/-! ## Words outside all brackets -/

/-- Whether a token stands in a source outside all brackets, those in front of it being balanced. -/
def IsOutside (source : String) (t : Token) : Prop :=
  ∃ front back trees, tokenize source = .ok (front ++ t :: back) ∧ groupTokens front = .ok trees

theorem Tree.flattenAll_sublist {some all : List Tree} (among : some.Sublist all) :
    (flattenAll some).Sublist (flattenAll all) := by
  induction among with
  | slnil => exact List.Sublist.refl _
  | cons tree _ inductionHypothesis =>
      rw [flattenAll]
      exact List.sublist_append_of_sublist_right inductionHypothesis
  | cons_cons tree _ inductionHypothesis =>
      rw [flattenAll, flattenAll]
      exact (List.Sublist.refl _).append inductionHypothesis

theorem Tree.flattenAll_tokens (tokens : List Token) : flattenAll (tokens.map .token) = tokens := by
  induction tokens with
  | nil => rfl
  | cons t tokens inductionHypothesis =>
      rw [List.map_cons, flattenAll, inductionHypothesis]
      rfl

section Source

variable {source : String} {trees : List Tree} {finish : Position}

/-- A token that is a tree of a source by itself stands outside all brackets. -/
theorem isOutside_of_mem (areTrees : treesOf source = .ok (trees, finish)) {t : Token}
    (member : Tree.token t ∈ trees) : IsOutside source t := by
  obtain ⟨-, plain⟩ := treesOf_eq_ok_iff_lexed.1 areTrees
  obtain ⟨front, back, rfl⟩ := List.append_of_mem member
  refine ⟨Tree.flattenAll front, Tree.flattenAll back ++ [Token.atEnd finish], front, ?_, ?_⟩
  · rw [tokenize_of_treesOf areTrees, Tree.flattenAll_append, Tree.flattenAll, Tree.flatten, List.append_assoc,
      List.append_assoc]
    rfl
  · have plainFront : ∀ u ∈ Tree.leavesAll front, u.IsPlain := by
      intro u inFront
      refine plain u ?_
      rw [Tree.leavesAll_append]
      exact List.mem_append_left _ inFront
    rw [← List.append_nil (Tree.flattenAll front)]
    refine groupTokens_flattenAll plainFront fun u inNothing => ?_
    cases inNothing

/-- The places of keywords among the trees of a source are in order. -/
theorem KeywordsAmong.pairwise {entries : List (Token × Attribute Parsed)} (among : KeywordsAmong trees entries)
    (areTrees : treesOf source = .ok (trees, finish)) :
    ((entries.map Prod.snd).map Attribute.position).Pairwise Position.Before := by
  obtain ⟨lexed, -⟩ := treesOf_eq_ok_iff_lexed.1 areTrees
  have words : (entries.map Prod.fst).Sublist (Tree.flattenAll trees ++ [Token.atEnd finish]) := by
    have flat := Tree.flattenAll_sublist among.sublist
    rw [Tree.flattenAll_tokens] at flat
    exact flat.trans (List.sublist_append_left ..)
  have samePlaces : (entries.map Prod.snd).map Attribute.position = (entries.map Prod.fst).map Token.position := by
    rw [List.map_map, List.map_map]
    exact List.map_congr_left fun entry member => (among.areKeywords entry member).position_eq.symm
  rw [samePlaces, List.pairwise_map]
  exact lexed.positions.2.sublist words

end Source

/-! ## Places of keywords -/

section Places

variable {α : Type}

/-- The places of the attributes with a keyword. -/
def placesOf (attributes : List (Attribute α)) (keyword : String) : List Position :=
  (attributes.filter fun a => a.keyword = keyword).map Attribute.position

/-- Adds the place of an attribute to those of its keyword, which is a new one if it is not there yet. -/
def recordPlace (found : List (String × List Position)) (a : Attribute α) : List (String × List Position) :=
  if a.keyword ∈ found.map Prod.fst then
    found.map fun entry => if entry.1 = a.keyword then (entry.1, entry.2 ++ [a.position]) else entry
  else found ++ [(a.keyword, [a.position])]

theorem placesOf_append_singleton (attributes : List (Attribute α)) (a : Attribute α) (keyword : String) :
    placesOf (attributes ++ [a]) keyword =
      placesOf attributes keyword ++ if a.keyword = keyword then [a.position] else [] := by
  rw [placesOf, List.filter_append, List.map_append, placesOf]
  by_cases same : a.keyword = keyword <;> simp [same]

theorem placesOf_eq_nil {attributes : List (Attribute α)} {keyword : String}
    (absent : keyword ∉ attributes.map Attribute.keyword) : placesOf attributes keyword = [] := by
  rw [placesOf, List.map_eq_nil_iff, List.filter_eq_nil_iff]
  intro a member same
  exact absent (List.mem_map.2 ⟨a, member, of_decide_eq_true same⟩)

theorem map_fst_keywordPositions (attributes : List (Attribute α)) :
    (keywordPositions attributes).map Prod.fst = (attributes.map Attribute.keyword).eraseDups := by
  rw [keywordPositions, List.map_map]
  exact List.map_id _

theorem mem_map_fst_keywordPositions {attributes : List (Attribute α)} {keyword : String} :
    keyword ∈ (keywordPositions attributes).map Prod.fst ↔ keyword ∈ attributes.map Attribute.keyword := by
  rw [map_fst_keywordPositions, List.mem_eraseDups]

/-- The places of keywords are collected one attribute after the other. -/
theorem keywordPositions_append_singleton (attributes : List (Attribute α)) (a : Attribute α) :
    keywordPositions (attributes ++ [a]) = recordPlace (keywordPositions attributes) a := by
  have keywords : ((attributes ++ [a]).map Attribute.keyword).eraseDups =
      (attributes.map Attribute.keyword).eraseDups ++
        if a.keyword ∈ attributes.map Attribute.keyword then [] else [a.keyword] := by
    rw [List.map_append, List.eraseDups_append, List.map_singleton, List.cons_removeAll]
    by_cases known : a.keyword ∈ attributes.map Attribute.keyword <;>
      simp [known, List.eraseDups_cons]
  have longer : keywordPositions (attributes ++ [a]) =
      ((attributes ++ [a]).map Attribute.keyword).eraseDups.map
        fun keyword => (keyword, placesOf (attributes ++ [a]) keyword) := rfl
  rw [longer, keywords, recordPlace]
  by_cases known : a.keyword ∈ attributes.map Attribute.keyword
  · rw [if_pos known, if_pos (mem_map_fst_keywordPositions.2 known), List.append_nil, keywordPositions,
      List.map_map]
    refine List.map_congr_left fun keyword _ => ?_
    rw [placesOf_append_singleton]
    rcases eq_or_ne a.keyword keyword with rfl | other
    · simp [placesOf]
    · simp [other, other.symm, placesOf]
  · rw [if_neg known, if_neg (mt mem_map_fst_keywordPositions.1 known), List.map_append, List.map_singleton,
      placesOf_append_singleton, placesOf_eq_nil known, if_pos rfl]
    refine congrArg (· ++ _) (List.map_congr_left fun keyword isKeyword => ?_)
    have other : a.keyword ≠ keyword := fun same => known (same ▸ List.mem_eraseDups.1 isKeyword)
    rw [placesOf_append_singleton, if_neg other, List.append_nil]
    rfl

theorem keywordPositions_append (front back : List (Attribute α)) :
    keywordPositions (front ++ back) = back.foldl recordPlace (keywordPositions front) := by
  induction back generalizing front with
  | nil => rw [List.append_nil, List.foldl_nil]
  | cons a back inductionHypothesis =>
      rw [List.append_cons, inductionHypothesis, keywordPositions_append_singleton, List.foldl_cons]

theorem keywordPositions_eq_foldl (attributes : List (Attribute α)) :
    keywordPositions attributes = attributes.foldl recordPlace [] :=
  keywordPositions_append [] attributes

/-- How many places there are in all entries. -/
def placeCount : List (String × List Position) → Nat
  | [] => 0
  | entry :: later => entry.2.length + placeCount later

theorem placeCount_append_singleton (found : List (String × List Position)) (entry : String × List Position) :
    placeCount (found ++ [entry]) = placeCount found + entry.2.length := by
  induction found with
  | nil => exact Nat.add_comm ..
  | cons first later inductionHypothesis =>
      rw [List.cons_append, placeCount, placeCount, inductionHypothesis, Nat.add_assoc]

section Record

variable {found : List (String × List Position)} {a : Attribute α}

theorem recordPlace_of_known (known : a.keyword ∈ found.map Prod.fst) :
    recordPlace found a =
      found.map fun entry => if entry.1 = a.keyword then (entry.1, entry.2 ++ [a.position]) else entry :=
  if_pos known

theorem recordPlace_of_new (new : a.keyword ∉ found.map Prod.fst) :
    recordPlace found a = found ++ [(a.keyword, [a.position])] :=
  if_neg new

theorem map_fst_recordPlace (found : List (String × List Position)) (a : Attribute α) :
    (recordPlace found a).map Prod.fst =
      found.map Prod.fst ++ if a.keyword ∈ found.map Prod.fst then [] else [a.keyword] := by
  by_cases known : a.keyword ∈ found.map Prod.fst
  · rw [recordPlace_of_known known, if_pos known, List.append_nil, List.map_map]
    refine List.map_congr_left fun entry _ => ?_
    by_cases same : entry.1 = a.keyword <;> simp [same]
  · rw [recordPlace_of_new known, if_neg known, List.map_append]
    rfl

/-- An attribute adds one place, since there is one entry for its keyword. -/
theorem placeCount_recordPlace (distinct : (found.map Prod.fst).Nodup) (a : Attribute α) :
    placeCount (recordPlace found a) = placeCount found + 1 := by
  by_cases known : a.keyword ∈ found.map Prod.fst
  · rw [recordPlace_of_known known]
    induction found with
    | nil => cases known
    | cons entry later inductionHypothesis =>
        obtain ⟨notLater, distinctLater⟩ := List.nodup_cons.1 distinct
        rw [List.map_cons, placeCount, placeCount]
        by_cases same : entry.1 = a.keyword
        · have others : later.map (fun entry =>
              if entry.1 = a.keyword then (entry.1, entry.2 ++ [a.position]) else entry) = later := by
            refine (List.map_congr_left fun other isLater => if_neg fun same' => notLater ?_).trans (List.map_id' later)
            exact List.mem_map.2 ⟨other, isLater, same'.trans same.symm⟩
          rw [others, if_pos same, List.length_append, List.length_singleton]
          omega
        · have isLater : a.keyword ∈ later.map Prod.fst := by
            rcases List.mem_cons.1 known with here | isLater
            · exact absurd here.symm same
            · exact isLater
          rw [inductionHypothesis distinctLater isLater, if_neg same, Nat.add_assoc]
  · rw [recordPlace_of_new known, placeCount_append_singleton]
    rfl

end Record

/-- What holds of the places of keywords that were collected from some attributes: there is one entry for each keyword,
in the order in which these first appear, with the places of the attributes that have it, and no place is lost. -/
structure Collected (attributes : List (Attribute α)) (found : List (String × List Position)) : Prop where
  keywords : ∀ keyword, keyword ∈ found.map Prod.fst ↔ keyword ∈ attributes.map Attribute.keyword
  inOrder : (found.map Prod.fst).Pairwise fun k l =>
    (attributes.map Attribute.keyword).idxOf k < (attributes.map Attribute.keyword).idxOf l
  places : ∀ entry ∈ found, entry.2 = placesOf attributes entry.1
  total : placeCount found = attributes.length

theorem collected_nil : Collected ([] : List (Attribute α)) [] where
  keywords := by simp
  inOrder := .nil
  places := by simp
  total := rfl

namespace Collected

variable {attributes : List (Attribute α)} {found : List (String × List Position)}

theorem nodup (collected : Collected attributes found) : (found.map Prod.fst).Nodup := by
  refine collected.inOrder.imp fun {k l} before same => ?_
  rw [same] at before
  exact Nat.lt_irrefl _ before

/-- What holds of the places that were collected still holds when one is added. -/
theorem record (collected : Collected attributes found) (a : Attribute α) :
    Collected (attributes ++ [a]) (recordPlace found a) where
  keywords := by
    intro keyword
    rw [map_fst_recordPlace, List.map_append, List.mem_append, List.mem_append, collected.keywords,
      List.map_singleton, List.mem_singleton]
    by_cases known : a.keyword ∈ found.map Prod.fst
    · rw [if_pos known]
      constructor
      · rintro (isOld | isNew)
        · exact .inl isOld
        · cases isNew
      · rintro (isOld | rfl)
        · exact .inl isOld
        · exact .inl ((collected.keywords _).1 known)
    · rw [if_neg known, List.mem_singleton]
  inOrder := by
    rw [map_fst_recordPlace, List.map_append, List.map_singleton]
    have kept : (found.map Prod.fst).Pairwise fun k l =>
        (attributes.map Attribute.keyword ++ [a.keyword]).idxOf k <
          (attributes.map Attribute.keyword ++ [a.keyword]).idxOf l := by
      refine collected.inOrder.imp_of_mem fun {k l} isKey isKey' before => ?_
      rwa [List.idxOf_append_of_mem ((collected.keywords k).1 isKey),
        List.idxOf_append_of_mem ((collected.keywords l).1 isKey')]
    by_cases known : a.keyword ∈ found.map Prod.fst
    · rwa [if_pos known, List.append_nil]
    · rw [if_neg known]
      refine List.pairwise_append.2 ⟨kept, List.pairwise_singleton .., fun k isKey l isNew => ?_⟩
      obtain rfl := List.mem_singleton.1 isNew
      have isOld := (collected.keywords k).1 isKey
      rw [List.idxOf_append_of_mem isOld, List.idxOf_append, if_neg (mt (collected.keywords _).2 known)]
      exact Nat.lt_of_lt_of_le (List.idxOf_lt_length_iff.2 isOld) (Nat.le_add_left ..)
  places := by
    intro entry member
    rw [placesOf_append_singleton]
    by_cases known : a.keyword ∈ found.map Prod.fst
    · rw [recordPlace_of_known known] at member
      obtain ⟨old, isOld, rfl⟩ := List.mem_map.1 member
      by_cases same : old.1 = a.keyword
      · rw [if_pos same, if_pos same.symm, collected.places old isOld]
      · rw [if_neg same, if_neg (Ne.symm same), List.append_nil, collected.places old isOld]
    · rw [recordPlace_of_new known] at member
      rcases List.mem_append.1 member with isOld | isNew
      · have other : a.keyword ≠ entry.1 := fun same => known (same ▸ List.mem_map_of_mem isOld)
        rw [if_neg other, List.append_nil, collected.places entry isOld]
      · obtain rfl := List.mem_singleton.1 isNew
        rw [if_pos rfl, placesOf_eq_nil (mt (collected.keywords _).2 known), List.nil_append]
  total := by
    rw [placeCount_recordPlace collected.nodup, collected.total, List.length_append, List.length_singleton]

theorem recordAll (collected : Collected attributes found) (later : List (Attribute α)) :
    Collected (attributes ++ later) (later.foldl recordPlace found) := by
  induction later generalizing attributes found with
  | nil => rwa [List.append_nil]
  | cons a later inductionHypothesis =>
      rw [List.append_cons]
      exact inductionHypothesis (collected.record a)

end Collected

theorem collected_keywordPositions (attributes : List (Attribute α)) :
    Collected attributes (keywordPositions attributes) := by
  have collected := collected_nil.recordAll attributes
  rwa [List.nil_append, ← keywordPositions_eq_foldl] at collected

end Places

/-- The attributes of a source by a set stand in order at the places of their keywords, which are words of the source
outside all brackets. The places of their keywords are collected with one entry for each keyword, in the order in which
the keywords first appear, and with all places of the keyword, in order, so that every attribute has its place in one
entry. -/
theorem keyword_places_of_parse {attrs : Grammar} (isSet : attrs.IsSet) {source : String}
    {nodes : List (Attribute Parsed)} (parsed : parseAttributes attrs source = .ok nodes) :
    (nodes.map Attribute.position).Pairwise Position.Before ∧
    (∀ a ∈ nodes, ∃ t, IsOutside source t ∧ t.IsKeywordOf a) ∧
    ((keywordPositions nodes).map Prod.fst).Nodup ∧
    Collected nodes (keywordPositions nodes) ∧
    ∀ entry ∈ keywordPositions nodes, entry.2.Pairwise Position.Before := by
  obtain ⟨trees, finish, entries, areTrees, rfl, among⟩ := exists_keywordsAmong_of_parse isSet parsed
  have inOrder := among.pairwise areTrees
  have collected := collected_keywordPositions (entries.map Prod.snd)
  refine ⟨inOrder, fun a member => ?_, collected.nodup, collected, fun entry member => ?_⟩
  · obtain ⟨entry, isEntry, rfl⟩ := List.mem_map.1 member
    have inTrees := among.sublist.subset (List.mem_map_of_mem (List.mem_map_of_mem isEntry))
    exact ⟨entry.1, isOutside_of_mem areTrees inTrees, among.areKeywords entry isEntry⟩
  · rw [collected.places entry member]
    exact inOrder.sublist (List.filter_sublist.map Attribute.position)

/-- A set with two keywords. -/
def markers : Grammar :=
  .attrs ⟨"marker", [⟨"a", .void⟩, ⟨"b", .list (.payload .ident)⟩]⟩

/-- The attributes `a,b(a),a`. -/
def marked : List (Attribute Parsed) :=
  [⟨"a", ⟨1, 1⟩, .void⟩, ⟨"b", ⟨1, 3⟩, .list [.payload (.ident ⟨"a", ⟨1, 5⟩⟩)]⟩, ⟨"a", ⟨1, 8⟩, .void⟩]

/-- A keyword that stands twice, and once in brackets, where it is none. -/
theorem keyword_places_of_parse_marked :
    markers.IsSet ∧ parseAttributes markers "a,b(a),a" = .ok marked ∧
      keywordPositions marked = [("a", [⟨1, 1⟩, ⟨1, 8⟩]), ("b", [⟨1, 3⟩])] ∧
      [(⟨1, 1⟩ : Position), ⟨1, 3⟩, ⟨1, 8⟩].Pairwise Position.Before := by
  have areTrees : treesOf "a,b(a),a" = .ok
      ([.token ⟨.ident, "a", ⟨1, 1⟩, false⟩, .token ⟨.comma, ",", ⟨1, 2⟩, false⟩,
        .token ⟨.ident, "b", ⟨1, 3⟩, false⟩,
        .group .paren ⟨1, 4⟩ ⟨1, 6⟩ [.token ⟨.ident, "a", ⟨1, 5⟩, false⟩],
        .token ⟨.comma, ",", ⟨1, 7⟩, false⟩, .token ⟨.ident, "a", ⟨1, 8⟩, false⟩], ⟨1, 9⟩) := by
    refine treesOf_eq_ok_iff_lexed.2 ⟨?_, by decide⟩
    refine @Lexer.Lexed.token _ [] 'a' [',', 'b', '(', 'a', ')', ',', 'a'] .ident 0 _ rfl (by rfl) ?_
    refine @Lexer.Lexed.token _ [] ',' ['b', '(', 'a', ')', ',', 'a'] .comma 0 _ rfl rfl ?_
    refine @Lexer.Lexed.token _ [] 'b' ['(', 'a', ')', ',', 'a'] .ident 0 _ rfl (by rfl) ?_
    refine @Lexer.Lexed.token _ [] '(' ['a', ')', ',', 'a'] .lparen 0 _ rfl rfl ?_
    refine @Lexer.Lexed.token _ [] 'a' [')', ',', 'a'] .ident 0 _ rfl (by rfl) ?_
    refine @Lexer.Lexed.token _ [] ')' [',', 'a'] .rparen 0 _ rfl rfl ?_
    refine @Lexer.Lexed.token _ [] ',' ['a'] .comma 0 _ rfl rfl ?_
    exact @Lexer.Lexed.token _ [] 'a' [] .ident 0 _ rfl (by rfl) (.finish rfl)
  have parsed : parseAttributes markers "a,b(a),a" = .ok marked := by
    rw [parseAttributes, Grammar.parse_of_trees areTrees]
    rfl
  have isSet : markers.IsSet := trivial
  exact ⟨isSet, parsed, by rfl, (keyword_places_of_parse isSet parsed).1⟩

end AttrGrammar
