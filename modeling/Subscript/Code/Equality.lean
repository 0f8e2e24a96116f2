import Subscript.Code

/-!
# Equality of code

Two pieces of code are equal when they are built alike, with equal types, places and names all the
way down. The comparison `Expr.same` runs through both trees side by side; `same_iff` says that it
decides equality.
-/

namespace Subscript.Code.Expr

/-! ## §1 The comparison -/

mutual

/-- Compare two expressions node by node. -/
def same : Expr → Expr → Bool
  | .literal i v, .literal i' v' => i == i' && v == v'
  | .var i s, .var i' s' => i == i' && s == s'
  | .temp i t, .temp i' t' => i == i' && t == t'
  | .self i, .self i' => i == i'
  | .field i o f, .field i' o' f' => i == i' && same o o' && f == f'
  | .element i o x, .element i' o' x' => i == i' && same o o' && same x x'
  | .call i r m as b, .call i' r' m' as' b' =>
    i == i' && same r r' && m == m' && sameAll as as' && b == b'
  | .staticCall i m as b, .staticCall i' m' as' b' =>
    i == i' && m == m' && sameAll as as' && b == b'
  | .construct i c as, .construct i' c' as' => i == i' && c == c' && sameAll as as'
  | .binary i op l r, .binary i' op' l' r' => i == i' && op == op' && same l l' && same r r'
  | .array i es, .array i' es' => i == i' && sameAll es es'
  | .store i t v, .store i' t' v' => i == i' && t == t' && same v v'
  | .sequence i ts ss r, .sequence i' ts' ss' r' =>
    i == i' && ts == ts' && sameAll ss ss' && same r r'
  | .dynamicMember i r n x, .dynamicMember i' r' n' x' =>
    i == i' && same r r' && n == n' && x == x'
  | .dynamicElement i r as ns ks, .dynamicElement i' r' as' ns' ks' =>
    i == i' && same r r' && sameAll as as' && ns == ns' && ks == ks'
  | _, _ => false
termination_by structural expr => expr

/-- Compare two lists of expressions position by position. -/
def sameAll : List Expr → List Expr → Bool
  | [], [] => true
  | e :: es, e' :: es' => same e e' && sameAll es es'
  | _, _ => false
termination_by structural exprs => exprs

end

/-! ## §2 It decides equality -/

mutual

/-- The comparison holds between equal expressions only. By induction on the first one: nodes of
one kind are compared part by part, and lists of parts by `sameAll_iff`. -/
theorem same_iff (a b : Expr) : same a b = true ↔ a = b := by
  -- nodes of different kinds are told apart by their constructors alone
  cases a with
  | field i o f => cases b <;> simp [same, same_iff o, and_assoc]
  | element i o x => cases b <;> simp [same, same_iff o, same_iff x, and_assoc]
  | call i r m as byRef =>
    cases b <;> simp [same, same_iff r, sameAll_iff as, and_assoc]
  | staticCall i m as byRef =>
    cases b <;> simp [same, sameAll_iff as, and_assoc]
  | construct i c as => cases b <;> simp [same, sameAll_iff as, and_assoc]
  | binary i op l r => cases b <;> simp [same, same_iff l, same_iff r, and_assoc]
  | array i es => cases b <;> simp [same, sameAll_iff es]
  | store i t v => cases b <;> simp [same, same_iff v, and_assoc]
  | sequence i ts ss r => cases b <;> simp [same, same_iff r, sameAll_iff ss, and_assoc]
  | dynamicMember i r n x =>
    cases b <;> simp [same, same_iff r, and_assoc]
  | dynamicElement i r as ns ks =>
    cases b <;> simp [same, same_iff r, sameAll_iff as, and_assoc]
  | _ => cases b <;> simp [same]
termination_by structural a

/-- The comparison holds between equal lists only. -/
theorem sameAll_iff (as bs : List Expr) : sameAll as bs = true ↔ as = bs := by
  cases as with
  | nil => cases bs <;> simp [sameAll]
  | cons a as => cases bs <;> simp [sameAll, same_iff a, sameAll_iff as]
termination_by structural as

end

instance : DecidableEq Expr := fun a b => decidable_of_iff _ (same_iff a b)

end Subscript.Code.Expr

namespace Subscript.Code

/-! ## §3 Places, targets and lowered accesses -/

deriving instance DecidableEq for Place

deriving instance DecidableEq for Target

deriving instance DecidableEq for Lowered

end Subscript.Code
