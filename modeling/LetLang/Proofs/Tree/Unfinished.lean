import LetLang.Proofs.Numeral
import LetLang.Proofs.Tree.Canonical

/-
  Unfinished expressions: tokens up to a place where an
  operand should start.

  An unfinished expression consists of segments, each of
  which has some signs, an atom and an operator, and of the
  signs behind them. A single atom finishes it: there is a
  canonical tree of the tokens of both. The other way round,
  the yield of a canonical tree without its last token is
  unfinished, and the last token is an atom.

  An operator waits for its right operand if it is looser
  than all that come later; an operator that is as loose as
  an earlier one takes the earlier one as its left operand.

  Key definitions include:
    * `Token.IsAtom`
    * `Token.Kind.startsOperand`
    * `Level.waiting`
    * `Segment`
    * `Unfinished`
    * `Unfinished.Above`
    * `Unfinished.join`
    * `Expr.IsGraft`

  Main declarations:
    * `Level.waiting_append`
    * `Expr.IsCanonical.exists_unfinished`
    * `Expr.IsCanonical.exists_graft`
    * `Unfinished.exists_tree`
-/

namespace LetLang

------------------------------------------------------------
-- Tokens of Operands
------------------------------------------------------------

namespace Token

/- Whether an operand can start with a token of a kind. -/
def Kind.startsOperand : Kind → Bool
  | .ident => true
  | .int => true
  | .trueWord => true
  | .falseWord => true
  | .bang => true
  | .minus => true
  | _ => false

/-
  A token that is an operand by itself: a name, a truth
  value, or a number that can be read.
-/
inductive IsAtom
    (token : Token) : Prop where
  | name
      (hKind : token.kind = .ident)
  | number
      (hKind : token.kind = .int)
      (hFits : Numeral.Fits token.literal)
  | truth
      (hKind :
        token.kind = .trueWord ∨ token.kind = .falseWord)

/- An atom is the yield of a canonical leaf. -/
theorem IsAtom.exists_leaf
    {token : Token}
    (hAtom : token.IsAtom) :
    ∃ expr : Expr,
      expr.IsCanonical ∧ ¬ expr.IsInfix ∧
        expr.yield = [token] := by
  cases hAtom with
  | name hKind =>
      exact
        ⟨.ident token, hKind, fun hInfix => hInfix, rfl⟩
  | number hKind hFits =>
      have hValue :=
        Token.integer_eq_ok_iff.mpr ⟨hFits, rfl⟩
      exact
        ⟨.int token _, ⟨hKind, hValue⟩,
          fun hInfix => hInfix, rfl⟩
  | truth hKind =>
      exact
        ⟨Expr.truth token, ⟨hKind, rfl⟩,
          fun hInfix => hInfix, rfl⟩

end Token

------------------------------------------------------------
-- Levels that Wait
------------------------------------------------------------

namespace Level

/-
  Of the levels of operators, first to last, those that are
  looser than all later ones.
-/
def waiting : List Level → List Level
  | [] => []
  | level :: later =>
      if ∀ other ∈ later, level < other then
        level :: waiting later
      else
        waiting later

theorem waiting_cons_of_lt
    {level : Level}
    {later : List Level}
    (hTighter : ∀ other ∈ later, level < other) :
    waiting (level :: later) = level :: waiting later := by
  rw [waiting, if_pos hTighter]

/-
  Operators do not wait behind which one comes that is at
  least as loose.
-/
theorem waiting_append
    {levels : List Level}
    {level : Level}
    (hLooser : ∀ other ∈ levels, level ≤ other)
    (later : List Level) :
    waiting (levels ++ level :: later) =
      waiting (level :: later) := by
  induction levels with
  | nil => rfl
  | cons first levels ih =>
      have hNot :
          ¬ ∀ other ∈ levels ++ level :: later,
            first < other := by
        intro hTighter
        have hLt : first < level :=
          hTighter level (by simp)
        exact
          not_lt_iff_le.mpr (hLooser first (by simp)) hLt
      rw [List.cons_append, waiting, if_neg hNot]
      apply ih
      intro other hMem
      exact hLooser other (List.mem_cons_of_mem _ hMem)

end Level

------------------------------------------------------------
-- Unfinished Expressions
------------------------------------------------------------

/- Signs, an atom, and an operator with two operands. -/
structure Segment where
  signs : List Token
  atom : Token
  operator : Token
  level : Level
  isUnary :
    ∀ sign ∈ signs, Parse.isUnary sign.kind = true
  isAtom : atom.IsAtom
  level_eq : operator.kind.level? = some level

/- The tokens of a segment. -/
def Segment.tokens
    (segment : Segment) : List Token :=
  segment.signs ++ [segment.atom, segment.operator]

/- Segments, and signs behind them. -/
structure Unfinished where
  segments : List Segment
  signs : List Token
  isUnary :
    ∀ sign ∈ signs, Parse.isUnary sign.kind = true

namespace Unfinished

/- The tokens of an unfinished expression. -/
def tokens
    (read : Unfinished) : List Token :=
  read.segments.flatMap Segment.tokens ++ read.signs

/- The levels of its operators with two operands. -/
def levels
    (read : Unfinished) : List Level :=
  read.segments.map Segment.level

/- All these operators bind more tightly than a level. -/
def Above
    (read : Unfinished)
    (floor : Level) : Prop :=
  ∀ level ∈ read.levels, floor < level

/- No such operator binds more tightly than the signs. -/
theorem Above.segments_eq_nil
    {read : Unfinished}
    (hAbove : read.Above .unary) :
    read.segments = [] := by
  rw [List.eq_nil_iff_forall_not_mem]
  intro segment hMem
  have hTight : Level.unary < segment.level :=
    hAbove segment.level (List.mem_map_of_mem hMem)
  have hLoose : segment.level < Level.unary :=
    Token.Kind.level?_lt_unary segment.level_eq
  rw [Level.lt_iff_rank] at hTight hLoose
  omega

/- The beginning of an expression. -/
def nil : Unfinished :=
  ⟨[], [], nofun⟩

/- Signs alone. -/
def ofSigns
    {signs : List Token}
    (isUnary :
      ∀ sign ∈ signs, Parse.isUnary sign.kind = true) :
    Unfinished :=
  ⟨[], signs, isUnary⟩

section Join

variable
  (read : Unfinished)
  {atom operator : Token}
  {level : Level}
  (hAtom : atom.IsAtom)
  (hLevel : operator.kind.level? = some level)
  (later : Unfinished)

/-
  An atom and an operator finish what came before, and
  another unfinished expression follows.
-/
def join : Unfinished :=
  ⟨read.segments
      ++ ⟨read.signs, atom, operator, level, read.isUnary,
          hAtom, hLevel⟩
        :: later.segments,
    later.signs, later.isUnary⟩

theorem tokens_join :
    (read.join hAtom hLevel later).tokens =
      read.tokens ++ atom :: operator :: later.tokens := by
  simp [join, tokens, Segment.tokens]

theorem levels_join :
    (read.join hAtom hLevel later).levels =
      read.levels ++ level :: later.levels := by
  simp [join, levels]

theorem above_join
    {floor : Level}
    (hRead : read.Above floor)
    (hAbove : floor < level)
    (hLater : later.Above floor) :
    (read.join hAtom hLevel later).Above floor := by
  intro other hMem
  rw [levels_join] at hMem
  rcases List.mem_append.mp hMem with hFirst | hRest
  · exact hRead other hFirst
  · rcases List.mem_cons.mp hRest with rfl | hBehind
    · exact hAbove
    · exact hLater other hBehind

end Join

end Unfinished

------------------------------------------------------------
-- Trees without Their Last Token
------------------------------------------------------------

/-
  The yield of a canonical tree is an unfinished expression
  and an atom. The induction is on the tree; the operator at
  its root joins what its operands have.
-/
theorem Expr.IsCanonical.exists_unfinished
    {expr : Expr}
    (hCanonical : expr.IsCanonical)
    {floor : Level}
    (hRoot : expr.RootAbove floor) :
    ∃ (read : Unfinished) (atom : Token),
      atom.IsAtom ∧ read.Above floor ∧
        expr.yield = read.tokens ++ [atom] := by
  induction expr generalizing floor with
  | ident token =>
      exact ⟨.nil, token, .name hCanonical, nofun, rfl⟩
  | int token value =>
      rcases hCanonical with ⟨hKind, hValue⟩
      have hFits := (Token.integer_eq_ok_iff.mp hValue).1
      exact ⟨.nil, token, .number hKind hFits, nofun, rfl⟩
  | bool token value =>
      exact ⟨.nil, token, .truth hCanonical.1, nofun, rfl⟩
  | prefixOp token right ih =>
      rcases hCanonical with ⟨hUnary, hRight, hNot⟩
      rcases
        ih hRight
          (Expr.rootAbove_of_not_isInfix hNot .unary) with
        ⟨read, atom, hAtom, hAbove, hYield⟩
      have hNone := hAbove.segments_eq_nil
      have hSigns :
          ∀ sign ∈ token :: read.signs,
            Parse.isUnary sign.kind = true := by
        rw [List.forall_mem_cons]
        exact ⟨hUnary, read.isUnary⟩
      refine ⟨.ofSigns hSigns, atom, hAtom, nofun, ?_⟩
      simp [Expr.yield, hYield, Unfinished.tokens, hNone,
        Unfinished.ofSigns]
  | infixOp token left right ihLeft ihRight =>
      rcases hCanonical with
        ⟨⟨level, hLevel, hLeftRoot, hRightRoot⟩, hLeft,
          hRight⟩
      have hAbove : floor < level := hRoot level hLevel
      have hLeftAbove : left.RootAbove floor := by
        intro root hRootLeft
        exact Level.lt_of_lt_of_le hAbove
          (hLeftRoot root hRootLeft)
      have hRightAbove : right.RootAbove floor := by
        intro root hRootRight
        exact Level.lt_of_lt_of_le hAbove
          (Level.le_of_lt (hRightRoot root hRootRight))
      rcases ihLeft hLeft hLeftAbove with
        ⟨read, atom, hAtom, hRead, hYield⟩
      rcases ihRight hRight hRightAbove with
        ⟨later, last, hLast, hLater, hRest⟩
      refine
        ⟨read.join hAtom hLevel later, last, hLast,
          read.above_join hAtom hLevel later hRead hAbove
            hLater, ?_⟩
      simp [Expr.yield, hYield, hRest,
        Unfinished.tokens_join]

------------------------------------------------------------
-- Trees from Their Tokens
------------------------------------------------------------

theorem Expr.rootAtLeast_of_not_isInfix
    {expr : Expr}
    (h : ¬ expr.IsInfix)
    (bound : Level) :
    expr.RootAtLeast bound := by
  intro level hLevel
  rw [Expr.level?_of_not_isInfix h] at hLevel
  cases hLevel

/-
  A tree comes from another one by putting an operator and
  an operand behind it. Its root is the root of the old tree
  or is the operator.
-/
structure Expr.IsGraft
    (left : Expr)
    (operator : Token)
    (level : Level)
    (right : Expr)
    (expr : Expr) : Prop where
  isCanonical : expr.IsCanonical
  yield_eq :
    expr.yield = left.yield ++ operator :: right.yield
  rootAbove :
    ∀ floor,
      left.RootAbove floor → floor < level →
        expr.RootAbove floor

section Graft

variable
  {left right : Expr}
  {operator : Token}
  {level : Level}
  (hLeft : left.IsCanonical)
  (hLevel : operator.kind.level? = some level)
  (hRight : right.IsCanonical)
  (hNot : ¬ right.IsInfix)

include hLeft hLevel hRight hNot

/- An operator that is no tighter takes the whole tree. -/
theorem Expr.isGraft_infixOp
    (hAtLeast : left.RootAtLeast level) :
    Expr.IsGraft left operator level right
      (.infixOp operator left right) := by
  constructor
  · have hAbove : right.RootAbove level :=
      Expr.rootAbove_of_not_isInfix hNot level
    exact
      ⟨⟨level, hLevel, hAtLeast, hAbove⟩, hLeft, hRight⟩
  · rfl
  · intro floor hRoot hAbove own hOwn
    cases hLevel.symm.trans hOwn
    exact hAbove

/-
  An operator and an operand can be put behind any canonical
  tree: they go down its right side as long as the operators
  there are looser.
-/
theorem Expr.IsCanonical.exists_graft :
    ∃ expr, Expr.IsGraft left operator level right expr := by
  induction left with
  | infixOp token below last ihBelow ihLast =>
      have hWhole := hLeft
      rcases hLeft with
        ⟨⟨own, hOwn, hBelowRoot, hLastRoot⟩, hBelow,
          hLast⟩
      by_cases hLooser : own < level
      · rcases ihLast hLast with ⟨grown, hGraft⟩
        have hGrownRoot : grown.RootAbove own :=
          hGraft.rootAbove own hLastRoot hLooser
        refine ⟨.infixOp token below grown, ?_, ?_, ?_⟩
        · exact
            ⟨⟨own, hOwn, hBelowRoot, hGrownRoot⟩, hBelow,
              hGraft.isCanonical⟩
        · simp [Expr.yield, hGraft.yield_eq]
        · intro floor hRoot hAbove
          exact hRoot
      · refine
          ⟨_, Expr.isGraft_infixOp hWhole hLevel hRight hNot
            ?_⟩
        intro root hRoot
        cases hOwn.symm.trans hRoot
        exact Level.not_lt_iff_le.mp hLooser
  | _ =>
      refine
        ⟨_, Expr.isGraft_infixOp hLeft hLevel hRight hNot
          ?_⟩
      apply Expr.rootAtLeast_of_not_isInfix
      exact fun hInfix => hInfix

end Graft

/- An atom behind signs is the yield of a canonical tree. -/
theorem Expr.exists_operand
    {signs : List Token}
    {atom : Token}
    (hSigns :
      ∀ sign ∈ signs, Parse.isUnary sign.kind = true)
    (hAtom : atom.IsAtom) :
    ∃ expr : Expr,
      expr.IsCanonical ∧ ¬ expr.IsInfix ∧
        expr.yield = signs ++ [atom] := by
  induction signs with
  | nil => exact hAtom.exists_leaf
  | cons sign signs ih =>
      rw [List.forall_mem_cons] at hSigns
      rcases ih hSigns.2 with
        ⟨right, hRight, hNot, hYield⟩
      exact
        ⟨.prefixOp sign right, ⟨hSigns.1, hRight, hNot⟩,
          fun hInfix => hInfix,
          congrArg (sign :: ·) hYield⟩

/-
  A canonical tree, an operator, an unfinished expression
  and an atom make a canonical tree. The induction is on the
  segments; the tree takes in one after the other.
-/
theorem Expr.IsCanonical.exists_tree
    {segments : List Segment}
    {signs : List Token}
    {atom : Token}
    (hSigns :
      ∀ sign ∈ signs, Parse.isUnary sign.kind = true)
    (hAtom : atom.IsAtom)
    {floor : Level}
    (hSegments :
      ∀ segment ∈ segments, floor < segment.level)
    {left : Expr}
    {operator : Token}
    {level : Level}
    (hLeft : left.IsCanonical)
    (hRoot : left.RootAbove floor)
    (hLevel : operator.kind.level? = some level)
    (hAbove : floor < level) :
    ∃ expr : Expr,
      expr.IsCanonicalAbove floor ∧
        expr.yield =
          left.yield
            ++ operator
              :: (segments.flatMap Segment.tokens
                ++ (signs ++ [atom])) := by
  induction segments generalizing left operator level with
  | nil =>
      rcases Expr.exists_operand hSigns hAtom with
        ⟨right, hRight, hNot, hYield⟩
      rcases hLeft.exists_graft hLevel hRight hNot with
        ⟨expr, hGraft⟩
      have hExpr := hGraft.rootAbove floor hRoot hAbove
      refine ⟨expr, ⟨hGraft.isCanonical, hExpr⟩, ?_⟩
      rw [hGraft.yield_eq, hYield]
      rfl
  | cons segment segments ih =>
      rw [List.forall_mem_cons] at hSegments
      rcases
        Expr.exists_operand segment.isUnary
          segment.isAtom with
        ⟨right, hRight, hNot, hYield⟩
      rcases hLeft.exists_graft hLevel hRight hNot with
        ⟨grown, hGraft⟩
      have hGrown := hGraft.rootAbove floor hRoot hAbove
      rcases
        ih hSegments.2 hGraft.isCanonical hGrown
          segment.level_eq hSegments.1 with
        ⟨expr, hCanonical, hExpr⟩
      refine ⟨expr, hCanonical, ?_⟩
      rw [hExpr, hGraft.yield_eq, hYield]
      simp [Segment.tokens]

/-
  An unfinished expression that is above a level is finished
  by any atom: there is a canonical tree above this level
  with the tokens of both.
-/
theorem Unfinished.exists_tree
    {read : Unfinished}
    {floor : Level}
    (hAbove : read.Above floor)
    {atom : Token}
    (hAtom : atom.IsAtom) :
    ∃ expr : Expr,
      expr.IsCanonicalAbove floor ∧
        expr.yield = read.tokens ++ [atom] := by
  rcases read with ⟨segments, signs, hSigns⟩
  cases segments with
  | nil =>
      rcases Expr.exists_operand hSigns hAtom with
        ⟨expr, hCanonical, hNot, hYield⟩
      have hRoot := Expr.rootAbove_of_not_isInfix hNot floor
      exact ⟨expr, ⟨hCanonical, hRoot⟩, hYield⟩
  | cons segment segments =>
      have hLevels :
          ∀ other ∈ segment :: segments,
            floor < other.level := by
        intro other hMem
        exact hAbove other.level (List.mem_map_of_mem hMem)
      rw [List.forall_mem_cons] at hLevels
      rcases
        Expr.exists_operand segment.isUnary
          segment.isAtom with
        ⟨left, hLeft, hNot, hYield⟩
      rcases
        hLeft.exists_tree hSigns hAtom hLevels.2
          (Expr.rootAbove_of_not_isInfix hNot floor)
          segment.level_eq hLevels.1 with
        ⟨expr, hCanonical, hExpr⟩
      refine ⟨expr, hCanonical, ?_⟩
      rw [hExpr, hYield]
      simp [tokens, Segment.tokens]

end LetLang
