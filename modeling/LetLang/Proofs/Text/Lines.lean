/-
  Texts made of lines.

  Lines that hold no line feed can be told apart in the text
  that they make together, if each is closed by a line feed.
  It does not matter whether the line feeds are said to
  close the lines or to stand between them.

  Main declarations:
    * `Text.append_cons_inj`
    * `Text.join_lines_inj`
    * `Text.splitOn_join_lines`
    * `Text.join_lines_eq_intercalate`
-/

namespace LetLang

namespace Text

/- A text splits in one way at the first of some mark. -/
theorem append_cons_inj
    {mark : Char}
    {first second text other : List Char}
    (hFirst : mark ∉ first)
    (hSecond : mark ∉ second)
    (h : first ++ mark :: text = second ++ mark :: other) :
    first = second ∧ text = other := by
  induction first generalizing second with
  | nil =>
      cases second with
      | nil => exact ⟨rfl, (List.cons.inj h).2⟩
      | cons d second =>
          rw [(List.cons.inj h).1] at hSecond
          exact (hSecond (List.mem_cons_self ..)).elim
  | cons c first ih =>
      cases second with
      | nil =>
          rw [(List.cons.inj h).1] at hFirst
          exact (hFirst (List.mem_cons_self ..)).elim
      | cons d second =>
          rcases List.cons.inj h with ⟨rfl, hRest⟩
          rcases
            ih (fun hMem => hFirst (List.mem_cons_of_mem _ hMem))
              (fun hMem => hSecond (List.mem_cons_of_mem _ hMem))
              hRest with ⟨rfl, hText⟩
          exact ⟨rfl, hText⟩

/- Lines are known from the text in which each is closed. -/
theorem join_lines_inj
    {first second : List String}
    (hFirst : ∀ line ∈ first, '\n' ∉ line.toList)
    (hSecond : ∀ line ∈ second, '\n' ∉ line.toList)
    (h :
      String.join (first.map (· ++ "\n")) =
        String.join (second.map (· ++ "\n"))) :
    first = second := by
  induction first generalizing second with
  | nil =>
      cases second with
      | nil => rfl
      | cons line second =>
          have hList := congrArg String.toList h
          simp at hList
  | cons line first ih =>
      cases second with
      | nil =>
          have hList := congrArg String.toList h
          simp at hList
      | cons other second =>
          rw [List.forall_mem_cons] at hFirst hSecond
          simp only [List.map_cons, String.join_cons] at h
          have hList := congrArg String.toList h
          simp only [String.toList_append,
            List.append_assoc] at hList
          rcases append_cons_inj hFirst.1 hSecond.1 hList
            with ⟨hLine, hRest⟩
          rw [String.toList_inj.mp hLine,
            ih hFirst.2 hSecond.2
              (String.toList_inj.mp hRest)]

/-
  A text of closed lines splits at the line feeds into the
  lines, and nothing behind the last one.
-/
theorem splitOn_join_lines
    {lines : List String}
    (hLines : ∀ line ∈ lines, '\n' ∉ line.toList) :
    (String.join (lines.map (· ++ "\n"))).toList.splitOn
        '\n' =
      lines.map String.toList ++ [[]] := by
  induction lines with
  | nil => rfl
  | cons line lines ih =>
      rw [List.forall_mem_cons] at hLines
      have hLine :
          ∀ c ∈ line.toList, (c == '\n') = false := by
        rintro c hMem
        rw [beq_eq_false_iff_ne]
        rintro rfl
        exact hLines.1 hMem
      have hText :
          (String.join
              ((line :: lines).map (· ++ "\n"))).toList =
            line.toList
              ++ '\n'
                :: (String.join
                  (lines.map (· ++ "\n"))).toList := by
        simp
      have hFeed : ('\n' == '\n') = true := rfl
      rw [hText, List.splitOn,
        List.splitOnP_append_cons (p := (· == '\n')) _ _
          hFeed,
        List.splitOnP_eq_singleton hLine]
      exact congrArg (line.toList :: ·) (ih hLines.2)

/- Line feeds between lines and a last one close them all. -/
theorem join_lines_eq_intercalate
    {lines : List String}
    (hLines : lines ≠ []) :
    String.join (lines.map (· ++ "\n")) =
      "\n".intercalate lines ++ "\n" := by
  induction lines with
  | nil => exact (hLines rfl).elim
  | cons line lines ih =>
      rw [List.map_cons, String.join_cons]
      cases lines with
      | nil =>
          rw [String.intercalate_singleton]
          exact String.append_empty
      | cons other lines =>
          rw [ih (List.cons_ne_nil _ _),
            String.intercalate_cons_cons,
            ← String.append_assoc]

end Text

end LetLang
