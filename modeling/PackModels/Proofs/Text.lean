import PackModels.Text

/-!
Contract: cutting a text undoes joining it.

Texts that are joined with a separator none of them contains are the pieces of
the result, and a name with a mark and a value after it is cut into the two if
the name does not contain the mark. The value may contain it.
-/

namespace PackModels.Text

variable {separator : Char}

theorem pieces_of_notMem {text : List Char} (absent : separator ∉ text) :
    pieces separator text = [text] := by
  induction text with
  | nil => rfl
  | cons head tail inductionHypothesis =>
      have different := List.ne_of_not_mem_cons absent
      have absentTail := List.not_mem_of_not_mem_cons absent
      rw [pieces, if_neg (Ne.symm different), inductionHypothesis absentTail]

theorem pieces_append {text : List Char} (absent : separator ∉ text) (rest : List Char) :
    pieces separator (text ++ separator :: rest) = text :: pieces separator rest := by
  induction text with
  | nil => rw [List.nil_append, pieces, if_pos rfl]
  | cons head tail inductionHypothesis =>
      have different := List.ne_of_not_mem_cons absent
      have absentTail := List.not_mem_of_not_mem_cons absent
      rw [List.cons_append, pieces, if_neg (Ne.symm different), inductionHypothesis absentTail]

/-- There is always a first piece. -/
theorem pieces_ne_nil (separator : Char) (text : List Char) : pieces separator text ≠ [] := by
  cases text with
  | nil => exact List.cons_ne_nil _ _
  | cons head tail =>
      rw [pieces]
      split
      · exact List.cons_ne_nil _ _
      · split
        · exact List.cons_ne_nil _ _
        · exact List.cons_ne_nil _ _

theorem split_ne_nil (separator : Char) (text : String) : split separator text ≠ [] := by
  rw [split, ne_eq, List.map_eq_nil_iff]
  exact pieces_ne_nil separator text.toList

/-- No piece contains the separator. -/
theorem notMem_of_mem_pieces {text piece : List Char} (member : piece ∈ pieces separator text) :
    separator ∉ piece := by
  induction text generalizing piece with
  | nil =>
      rw [pieces, List.mem_singleton] at member
      rw [member]
      exact List.not_mem_nil
  | cons head tail inductionHypothesis =>
      rw [pieces] at member
      by_cases cuts : head = separator
      · rw [if_pos cuts, List.mem_cons] at member
        rcases member with rfl | later
        · exact List.not_mem_nil
        · exact inductionHypothesis later
      · rw [if_neg cuts] at member
        cases following : pieces separator tail with
        | nil =>
            rw [following, List.mem_singleton] at member
            rw [member, List.mem_singleton]
            exact Ne.symm cuts
        | cons first rest =>
            rw [following, List.mem_cons] at member
            rcases member with rfl | later
            · have absent := inductionHypothesis (following ▸ List.mem_cons_self)
              exact List.not_mem_cons_of_ne_of_not_mem (Ne.symm cuts) absent
            · exact inductionHypothesis (following ▸ List.mem_cons_of_mem first later)

theorem notMem_of_mem_split {text piece : String} (member : piece ∈ split separator text) :
    separator ∉ piece.toList := by
  obtain ⟨characters, isPiece, rfl⟩ := List.mem_map.mp member
  rw [String.toList_ofList]
  exact notMem_of_mem_pieces isPiece

/-- Joined texts are the pieces of the result. -/
theorem split_join {mark : String} (isMark : mark.toList = [separator]) :
    ∀ texts : List String, texts ≠ [] → (∀ text ∈ texts, separator ∉ text.toList) →
      split separator (join mark texts) = texts := by
  intro texts
  induction texts with
  | nil => exact fun some _ => absurd rfl some
  | cons first rest inductionHypothesis =>
      intro _ absent
      have absentFirst := absent first List.mem_cons_self
      cases rest with
      | nil =>
          rw [join, split, pieces_of_notMem absentFirst, List.map_singleton, String.ofList_toList]
      | cons second rest =>
          have restSplit := inductionHypothesis (List.cons_ne_nil second rest)
            (fun text member => absent text (List.mem_cons_of_mem first member))
          have characters : (join mark (first :: second :: rest)).toList =
              first.toList ++ separator :: (join mark (second :: rest)).toList := by
            rw [join, String.toList_append, String.toList_append, isMark, List.append_assoc,
              List.singleton_append]
            exact List.cons_ne_nil second rest
          rw [split, characters, pieces_append absentFirst, List.map_cons, String.ofList_toList]
          exact congrArg (first :: ·) restSplit

/-- The pieces of a text are what it is joined from. -/
theorem join_split {mark : String} (isMark : mark.toList = [separator]) (text : String) :
    join mark (split separator text) = text := by
  suffices joined : ∀ characters : List Char,
      (join mark ((pieces separator characters).map String.ofList)).toList = characters by
    rw [← String.toList_inj, split, joined]
  intro characters
  induction characters with
  | nil => rw [pieces, List.map_singleton, join, String.toList_ofList]
  | cons head tail inductionHypothesis =>
      obtain ⟨first, rest, following⟩ := List.exists_cons_of_ne_nil (pieces_ne_nil separator tail)
      rw [following] at inductionHypothesis
      by_cases cuts : head = separator
      · rw [pieces, if_pos cuts, following, List.map_cons, List.map_cons, join,
          String.toList_append, String.toList_append, isMark, ← List.map_cons,
          inductionHypothesis, String.toList_ofList, cuts]
        · rfl
        · exact List.cons_ne_nil _ _
      · rw [pieces, if_neg cuts, following]
        -- The character goes in front of the first piece, and so in front of the whole.
        cases rest with
        | nil =>
            rw [List.map_singleton, join, String.toList_ofList] at inductionHypothesis ⊢
            rw [inductionHypothesis]
        | cons second others =>
            rw [List.map_cons, List.map_cons, join, String.toList_append,
              String.toList_append, String.toList_ofList] at inductionHypothesis ⊢
            · rw [List.cons_append, List.cons_append, inductionHypothesis]
            · exact List.cons_ne_nil _ _
            · exact List.cons_ne_nil _ _

/-- A text is split into the texts without the separator that it is joined
from. -/
theorem split_eq_iff {mark : String} (isMark : mark.toList = [separator]) {text : String}
    {texts : List String} : split separator text = texts ↔
      texts ≠ [] ∧ (∀ piece ∈ texts, separator ∉ piece.toList) ∧ text = join mark texts := by
  constructor
  · rintro rfl
    exact ⟨split_ne_nil separator text, fun piece member => notMem_of_mem_split member,
      (join_split isMark text).symm⟩
  · rintro ⟨some, absent, rfl⟩
    exact split_join isMark texts some absent

theorem dropLeading?_eq_some_iff {leading : Char} {text rest : String} :
    dropLeading? leading text = some rest ↔ text.toList = leading :: rest.toList := by
  unfold dropLeading?
  cases text.toList with
  | nil => simp
  | cons head tail =>
      by_cases leads : head = leading
      · simp [leads, ← String.toList_inj]
      · simp [leads]

/-- What is left of a text without its mark. -/
theorem dropLeading?_mark {leading : Char} {mark : String} (isMark : mark.toList = [leading])
    {text rest : String} : dropLeading? leading text = some rest ↔ text = mark ++ rest := by
  rw [dropLeading?_eq_some_iff, ← String.toList_inj, String.toList_append, isMark,
    List.singleton_append]

theorem dropLeading?_eq_none_iff {leading : Char} {mark : String}
    (isMark : mark.toList = [leading]) {text : String} :
    dropLeading? leading text = none ↔ ∀ rest, text ≠ mark ++ rest := by
  rw [Option.eq_none_iff_forall_ne_some]
  exact forall_congr' fun rest => not_congr (dropLeading?_mark isMark)

theorem cutAt_append {name : List Char} (absent : separator ∉ name) (rest : List Char) :
    cutAt separator (name ++ separator :: rest) = some (name, rest) := by
  induction name with
  | nil => rw [List.nil_append, cutAt, if_pos rfl]
  | cons head tail inductionHypothesis =>
      have different := List.ne_of_not_mem_cons absent
      have absentTail := List.not_mem_of_not_mem_cons absent
      rw [List.cons_append, cutAt, if_neg (Ne.symm different), inductionHypothesis absentTail,
        Option.map_some]

/-- Texts that end at the same separator are the same. -/
theorem append_inj_of_notMem {left right rest rest' : List Char} (absent : separator ∉ left)
    (absent' : separator ∉ right)
    (same : left ++ separator :: rest = right ++ separator :: rest') :
    left = right ∧ rest = rest' := by
  have cut := cutAt_append absent rest
  rw [same, cutAt_append absent', Option.some.injEq, Prod.mk.injEq] at cut
  exact ⟨cut.1.symm, cut.2.symm⟩

/-- A text is cut at its first separator, and consists of it and the two parts. -/
theorem cutAt_eq_some_iff {text left right : List Char} :
    cutAt separator text = some (left, right) ↔
      separator ∉ left ∧ text = left ++ separator :: right := by
  constructor
  · intro cut
    induction text generalizing left with
    | nil => cases cut
    | cons head tail inductionHypothesis =>
        rw [cutAt] at cut
        by_cases here : head = separator
        · rw [if_pos here, Option.some.injEq, Prod.mk.injEq] at cut
          obtain ⟨rfl, rfl⟩ := cut
          exact ⟨List.not_mem_nil, congrArg (· :: tail) here⟩
        · rw [if_neg here, Option.map_eq_some_iff] at cut
          obtain ⟨⟨before, after⟩, later, same⟩ := cut
          rw [Prod.mk.injEq] at same
          obtain ⟨rfl, rfl⟩ := same
          obtain ⟨absent, rfl⟩ := inductionHypothesis later
          exact ⟨List.not_mem_cons_of_ne_of_not_mem (Ne.symm here) absent, rfl⟩
  · rintro ⟨absent, rfl⟩
    exact cutAt_append absent right

/-- A name is cut off at the first mark. -/
theorem cut?_append {mark : String} (isMark : mark.toList = [separator]) {name : String}
    (absent : separator ∉ name.toList) (value : String) :
    cut? separator (name ++ mark ++ value) = some (name, value) := by
  have characters : (name ++ mark ++ value).toList =
      name.toList ++ separator :: value.toList := by
    rw [String.toList_append, String.toList_append, isMark, List.append_assoc,
      List.singleton_append]
  rw [cut?, characters, cutAt_append absent, Option.map_some, String.ofList_toList,
    String.ofList_toList]

end PackModels.Text
