import LetLang.Token.Kind

/-
  Binding levels of operators, from loosest to tightest, and
  the level at which each kind of token continues an
  expression.

  Key definitions include:
    * `Level`
    * `Level.rank`
    * `Token.Kind.level?`
    * `Token.Kind.bindsAbove`
-/

namespace LetLang

------------------------------------------------------------
-- Levels
------------------------------------------------------------

/- How tightly an operator binds. -/
inductive Level where
  | lowest
  | equals
  | lessGreater
  | sum
  | product
  | unary
  | call
  deriving DecidableEq, Repr

namespace Level

/- Every level, loosest first. -/
def all : List Level :=
  [.lowest, .equals, .lessGreater, .sum, .product,
    .unary, .call]

/- The place of a level in the order of levels. -/
def rank : Level → Nat
  | .lowest => 0
  | .equals => 1
  | .lessGreater => 2
  | .sum => 3
  | .product => 4
  | .unary => 5
  | .call => 6

/- The name under which a level is tabulated. -/
def label : Level → String
  | .lowest => "LOWEST"
  | .equals => "EQUALS"
  | .lessGreater => "LESS_GREATER"
  | .sum => "SUM"
  | .product => "PRODUCT"
  | .unary => "PREFIX"
  | .call => "CALL"

/- The level tabulated under a name. -/
def ofLabel?
    (name : String) : Option Level :=
  all.find? (fun level => level.label == name)

theorem ofLabel?_label
    (level : Level) :
    ofLabel? level.label = some level := by
  cases level <;> decide

theorem rank_inj
    {a b : Level}
    (h : a.rank = b.rank) :
    a = b := by
  cases a <;> cases b <;> simp_all [rank]

/- A level is looser than another if its rank is smaller. -/
instance : LT Level :=
  ⟨fun a b => a.rank < b.rank⟩

instance : LE Level :=
  ⟨fun a b => a.rank ≤ b.rank⟩

instance
    (a b : Level) :
    Decidable (a < b) :=
  inferInstanceAs (Decidable (a.rank < b.rank))

instance
    (a b : Level) :
    Decidable (a ≤ b) :=
  inferInstanceAs (Decidable (a.rank ≤ b.rank))

theorem lt_iff_rank
    {a b : Level} :
    a < b ↔ a.rank < b.rank :=
  Iff.rfl

theorem le_iff_rank
    {a b : Level} :
    a ≤ b ↔ a.rank ≤ b.rank :=
  Iff.rfl

end Level

------------------------------------------------------------
-- Levels of Kinds
------------------------------------------------------------

namespace Token.Kind

/-
  The level at which a token continues an expression. Only
  the operators with two operands have one.
-/
def level? : Kind → Option Level
  | .equal => some .equals
  | .notEqual => some .equals
  | .lessThan => some .lessGreater
  | .greaterThan => some .lessGreater
  | .plus => some .sum
  | .minus => some .sum
  | .slash => some .product
  | .asterisk => some .product
  | _ => none

/-
  Whether a token continues an expression of which every
  operator must bind more tightly than a given level.
-/
def bindsAbove
    (kind : Kind)
    (floor : Level) : Bool :=
  match kind.level? with
  | none => false
  | some level => decide (floor < level)

/-
  No operator with two operands binds as tightly as the
  operators with one.
-/
theorem level?_lt_unary
    {kind : Kind}
    {level : Level}
    (h : kind.level? = some level) :
    level < Level.unary := by
  cases kind <;> simp [level?] at h <;> subst h <;> decide

end Token.Kind

end LetLang
