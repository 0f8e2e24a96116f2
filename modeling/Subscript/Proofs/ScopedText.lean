import Subscript.Code.Printer
import Subscript.Proofs.Execution

/-!
# Names by scope

The printer writes down every declaration it meets in one table, takes none of them out again, and
prints the arguments of a call ahead of its receiver. None of this shows in code that the scope
check accepts: such code has the text that a printer without a table gives it, one that only knows
the declarations around each part, and that printer finds every temporary declared.

## Architecture

- §1 `Expr.textIn`, the text between given declarations
- §2 `Declared.Agree`, tables that agree about temporaries
- §3 `Shows`, printing that gives the text of a scope
- §4 well-scoped code
- §5 validated code
-/

namespace Subscript.Code

/-! ## §1 Texts of a scope -/

/-- The texts of arguments, each behind its name and the way it is passed. -/
def labelled : List String → List (Option String) → List RefKind → List String
  | [], _, _ => []
  | text :: texts, names, refKinds =>
    (argumentLabel names.head?.join refKinds.head? ++ text) ::
      labelled texts names.tail refKinds.tail

/-- The texts of stores in the order in which they run, each closed by a semicolon. -/
def closed : List String → String
  | [] => ""
  | text :: texts => text ++ "; " ++ closed texts

mutual

/-- The text of an expression between declarations. There is none if a temporary is read or stored
that is not declared there. -/
def Expr.textIn (symbols : SymbolTable) (scope : Declared) : Expr → Option String
  | .literal _ value => some (literalText value)
  | .var _ symbol => some (symbols.name symbol)
  | .temp _ id => do
    let temp ← scope.find? id
    return temp.name
  | .self _ => some "this"
  | .field _ object field => do
    let object ← object.textIn symbols scope
    return object ++ "." ++ symbols.name field
  | .element _ object index => do
    let object ← object.textIn symbols scope
    let index ← index.textIn symbols scope
    return object ++ "[" ++ index ++ "]"
  | .call _ receiver method arguments _ => do
    let receiver ← receiver.textIn symbols scope
    let arguments ← textsIn symbols scope arguments
    return receiver ++ "." ++ symbols.name method ++ "(" ++ commaSeparated arguments ++ ")"
  | .staticCall _ method arguments _ => do
    let arguments ← textsIn symbols scope arguments
    return symbols.name method ++ "(" ++ commaSeparated arguments ++ ")"
  | .construct _ constructor arguments => do
    let arguments ← textsIn symbols scope arguments
    return "new " ++ symbols.name constructor ++ "(" ++ commaSeparated arguments ++ ")"
  | .binary _ op left right => do
    let left ← left.textIn symbols scope
    let right ← right.textIn symbols scope
    return "(" ++ left ++ " " ++ op.sign ++ " " ++ right ++ ")"
  | .array _ elements => do
    let elements ← textsIn symbols scope elements
    return "[" ++ commaSeparated elements ++ "]"
  | .store _ id value => do
    let value ← value.textIn symbols scope
    let temp ← scope.find? id
    return (if temp.holding = .storage then "ref " else "") ++ temp.name ++ " = " ++ value
  | .sequence _ temps stores result => do
    -- these declarations are known inside the sequence and nowhere else
    let stores ← textsIn symbols (scope.declare temps) stores
    let result ← result.textIn symbols (scope.declare temps)
    return "\x7b " ++ closed stores ++ result ++ " \x7d"
  | .dynamicMember _ receiver name indexable => do
    let receiver ← receiver.textIn symbols scope
    return "dyn_get_member(" ++ receiver ++ ", " ++ Text.quoted name ++
      (if indexable then ", indexed)" else ")")
  | .dynamicElement _ receiver arguments names refKinds => do
    let receiver ← receiver.textIn symbols scope
    let arguments ← textsIn symbols scope arguments
    let list := commaSeparated (labelled arguments names refKinds)
    return "dyn_get_index(" ++ receiver ++ (if list.isEmpty then "" else ", " ++ list) ++ ")"
termination_by structural expr => expr

/-- The texts of expressions between the same declarations, from left to right. -/
def textsIn (symbols : SymbolTable) (scope : Declared) : List Expr → Option (List String)
  | [] => some []
  | expr :: exprs => do
    let text ← expr.textIn symbols scope
    let texts ← textsIn symbols scope exprs
    return text :: texts
termination_by structural exprs => exprs

end

/-- The text of an assignable element between declarations. -/
def Place.textIn (symbols : SymbolTable) (scope : Declared) : Place → Option String
  | .indexer receiver symbol _ _ arguments shape => do
    let receiver ← receiver.textIn symbols scope
    let arguments ← textsIn symbols scope arguments
    return "indexer " ++ receiver ++ "." ++ symbols.name symbol ++
      "[" ++ commaSeparated (labelled arguments shape.names shape.refKinds) ++ "]"
  | .dynamic receiver arguments names refKinds => do
    let receiver ← receiver.textIn symbols scope
    let arguments ← textsIn symbols scope arguments
    return "dyn_index " ++ receiver ++
      "[" ++ commaSeparated (labelled arguments names refKinds) ++ "]"
  | .element object index => do
    let object ← object.textIn symbols scope
    let index ← index.textIn symbols scope
    return "element " ++ object ++ "[" ++ index ++ "]"

/-- The text of a target whose declarations are the only ones. -/
def Target.scopedText (symbols : SymbolTable) (target : Target) : Option String := do
  let stores ← textsIn symbols (Declared.declare [] target.temps) target.stores
  let place ← target.place.textIn symbols (Declared.declare [] target.temps)
  return (if target.stores.isEmpty then "" else "\x7b " ++ closed stores ++ "\x7d ") ++ place

/-- The text of a lowered access that stands by itself. -/
def Lowered.scopedText (symbols : SymbolTable) : Lowered → Option String
  | .value expr => expr.textIn symbols []
  | .target assignable => assignable.scopedText symbols

/-! ## §2 Tables -/

namespace Declared

/-- The latest declaration comes first, and earlier ones only where there is no later one. -/
private theorem find?_declare (table : Declared) (temps : List Temp) (id : TempId) :
    (table.declare temps).find? id =
      (List.find? (fun temp => temp.id == id) temps.reverse).or (table.find? id) := by
  rw [find?, declare, List.find?_append]
  rfl

/-- Declarations of other temporaries leave a temporary alone. -/
private theorem find?_declare_of_not_mem {table : Declared} {temps : List Temp} {id : TempId}
    (h : id ∉ temps.map (·.id)) : (table.declare temps).find? id = table.find? id := by
  have hnone : List.find? (fun temp : Temp => temp.id == id) temps.reverse = none := by
    rw [List.find?_eq_none]
    intro temp htemp heq
    apply h
    rw [← eq_of_beq heq]
    exact List.mem_map_of_mem (List.mem_reverse.mp htemp)
  rw [find?_declare, hnone, Option.none_or]

/-- Every temporary of a list is declared in a scope, and a table has it as declared there. -/
def Agree (visible : List TempId) (scope table : Declared) : Prop :=
  ∀ id ∈ visible, ∃ temp, scope.find? id = some temp ∧ table.find? id = some temp

/-- A table may change at temporaries that are not visible. -/
private theorem Agree.of_find?_eq {visible declared : List TempId} {scope table table' : Declared}
    (h : Agree visible scope table)
    (heq : ∀ id, id ∉ declared → table'.find? id = table.find? id)
    (hdisj : declared.Disjoint visible) : Agree visible scope table' := by
  intro id hid
  rw [heq id fun hdeclared => hdisj hdeclared hid]
  exact h id hid

/-- Tables that agree go on to agree about temporaries declared in both. -/
private theorem Agree.declare {visible : List TempId} {scope table : Declared}
    (h : Agree visible scope table) (temps : List Temp) :
    Agree (scopeBehind visible temps) (scope.declare temps) (table.declare temps) := by
  intro id hid
  by_cases hown : id ∈ temps.map (·.id)
  -- the latest declaration among the new ones is the one that both find
  · obtain ⟨temp, htemp, rfl⟩ := List.mem_map.mp hown
    have hsome : (List.find? (fun other => other.id == temp.id) temps.reverse).isSome = true := by
      rw [List.find?_isSome]
      exact ⟨temp, List.mem_reverse.mpr htemp, beq_self_eq_true temp.id⟩
    obtain ⟨found, hfound⟩ := Option.isSome_iff_exists.mp hsome
    refine ⟨found, ?_, ?_⟩
    all_goals rw [find?_declare, hfound, Option.some_or]
  · rw [find?_declare_of_not_mem hown, find?_declare_of_not_mem hown]
    exact h id ((mem_scopeBehind.mp hid).resolve_left hown)

end Declared

/-! ## §3 Printing in a scope -/

section Shows

variable {α β : Type} {scope : Declared} {visible declared declared' : List TempId}

/-- From every table that agrees with a scope about visible temporaries, a step of the printer gives
what the scope gives, and it changes the table only at temporaries of a list. -/
def Shows (scope : Declared) (visible declared : List TempId) (print : StateM Declared α)
    (shown? : Option α) : Prop :=
  ∀ table, Declared.Agree visible scope table →
    shown? = some (print.run table).1 ∧
      ∀ id, id ∉ declared → (print.run table).2.find? id = table.find? id

theorem Shows.pure (value : α) :
    Shows scope visible [] (Pure.pure value) (some value) :=
  fun _ _ => ⟨rfl, fun _ _ => rfl⟩

/-- What the first step declares is not visible, so the second cannot tell the tables apart. -/
theorem Shows.bind {first : StateM Declared α} {next : α → StateM Declared β}
    {shown? : Option α} {next? : α → Option β} (h : Shows scope visible declared first shown?)
    (hdisj : declared.Disjoint visible)
    (h' : ∀ value, Shows scope visible declared' (next value) (next? value)) :
    Shows scope visible (declared ++ declared') (first >>= next) (shown? >>= next?) := by
  intro table hagree
  obtain ⟨hshown, hkept⟩ := h table hagree
  have hagree' := hagree.of_find?_eq hkept hdisj
  obtain ⟨hshown', hkept'⟩ := h' (first.run table).1 (first.run table).2 hagree'
  refine ⟨?_, ?_⟩
  · rw [hshown]
    exact hshown'
  · intro id hid
    rw [List.mem_append, not_or] at hid
    exact (hkept' id hid.2).trans (hkept id hid.1)

/-- A step that only rearranges a text shows the rearranged text. -/
theorem Shows.map {print : StateM Declared α} {shown? : Option α}
    (h : Shows scope visible declared print shown?) (f : α → β) :
    Shows scope visible declared (print >>= fun value => Pure.pure (f value))
      (shown? >>= fun value => Pure.pure (f value)) := by
  intro table hagree
  obtain ⟨hshown, hkept⟩ := h table hagree
  exact ⟨by rw [hshown]; rfl, hkept⟩

theorem Shows.congr {print : StateM Declared α} {shown? shown?' : Option α}
    (h : Shows scope visible declared print shown?) (heq : shown? = shown?')
    (hsub : declared ⊆ declared') : Shows scope visible declared' print shown?' := by
  intro table hagree
  obtain ⟨hshown, hkept⟩ := h table hagree
  exact ⟨heq ▸ hshown, fun id hid => hkept id fun hdeclared => hid (hsub hdeclared)⟩

/-- A visible temporary is read under the name of its declaration. -/
theorem Shows.read {id : TempId} (hid : id ∈ visible) :
    Shows scope visible [] (get >>= fun table => Pure.pure (table.nameOf id))
      (scope.find? id >>= fun temp => Pure.pure temp.name) := by
  intro table hagree
  obtain ⟨temp, hscope, htable⟩ := hagree id hid
  refine ⟨?_, fun _ _ => rfl⟩
  show _ = some (table.nameOf id)
  rw [Declared.nameOf, hscope, htable]
  rfl

/-- A visible temporary is stored under the name of its declaration, and as the storage that it
holds there. -/
theorem Shows.store {id : TempId} (hid : id ∈ visible) (value : String) :
    Shows scope visible []
      (get >>= fun table =>
        Pure.pure (table.storeKeyword id ++ table.nameOf id ++ " = " ++ value))
      (scope.find? id >>= fun temp =>
        Pure.pure
          ((if temp.holding = .storage then "ref " else "") ++ temp.name ++ " = " ++ value)) := by
  intro table hagree
  obtain ⟨temp, hscope, htable⟩ := hagree id hid
  refine ⟨?_, fun _ _ => rfl⟩
  show _ = some (table.storeKeyword id ++ table.nameOf id ++ " = " ++ value)
  rw [Declared.storeKeyword, Declared.nameOf, hscope, htable]
  rfl

/-- A step that begins with declarations is one inside them. -/
theorem Shows.declare {print : StateM Declared α} {shown? : Option α} {temps : List Temp}
    (h : Shows (scope.declare temps) (scopeBehind visible temps) declared print shown?) :
    Shows scope visible (temps.map (·.id) ++ declared)
      (modify (Declared.declare · temps) >>= fun _ => print) shown? := by
  intro table hagree
  obtain ⟨hshown, hkept⟩ := h (table.declare temps) (hagree.declare temps)
  refine ⟨hshown, ?_⟩
  intro id hid
  rw [List.mem_append, not_or] at hid
  exact (hkept id hid.2).trans (Declared.find?_declare_of_not_mem hid.1)

end Shows

/-! ## §4 Well-scoped code -/

section Scoped

variable (symbols : SymbolTable)

/-- Labels do not take part in the printing of the arguments behind them. -/
private theorem printLabelled_eq (exprs : List Expr) (names : List (Option String))
    (refKinds : List RefKind) :
    printLabelled symbols exprs names refKinds =
      (printAll symbols exprs >>= fun texts => pure (labelled texts names refKinds)) := by
  induction exprs generalizing names refKinds with
  | nil => rfl
  | cons expr exprs ih =>
    rw [printLabelled, printAll]
    simp only [ih, bind_assoc, pure_bind]
    rfl

/-- Arguments that print as their texts print, behind their labels, as their labelled texts. -/
private theorem Shows.labelled {β : Type} {scope : Declared} {visible declared : List TempId}
    {exprs : List Expr} {shown? : Option (List String)}
    (h : Shows scope visible declared (printAll symbols exprs) shown?)
    (names : List (Option String)) (refKinds : List RefKind) (f : List String → β) :
    Shows scope visible declared
      (printLabelled symbols exprs names refKinds >>= fun texts => Pure.pure (f texts))
      (shown? >>= fun texts => Pure.pure (f (Code.labelled texts names refKinds))) := by
  rw [printLabelled_eq]
  simp only [bind_assoc, pure_bind]
  exact h.map _

/-- Stores are printed like other expressions, each closed by a semicolon. -/
private theorem printStores_eq (stores : List Expr) :
    printStores symbols stores =
      (printAll symbols stores >>= fun texts => pure (closed texts)) := by
  induction stores with
  | nil => rfl
  | cons store stores ih =>
    rw [printStores, printAll]
    simp only [ih, bind_assoc, pure_bind]
    rfl

mutual

/-- Well-scoped code prints as its text in any scope that declares what it reads. The printer has
one table for everything, and `Apart` is what keeps the declarations of one operand from being
seen in another. -/
theorem Expr.print_shows (scope : Declared) (visible : List TempId) (expr : Expr)
    (hscoped : expr.Scoped visible) (hapart : Apart visible expr.declared) :
    Shows scope visible expr.declared (expr.print symbols) (expr.textIn symbols scope) := by
  cases expr with
  | literal info value => exact Shows.pure _
  | var info symbol => exact Shows.pure _
  | temp info id => exact Shows.read hscoped
  | self info => exact Shows.pure _
  | field info object field =>
    have hobject := object.print_shows scope visible hscoped (by simpa using hapart)
    exact (hobject.map _).congr rfl (by simp)
  | element info object index =>
    simp only [Expr.gather_element, Expr.ownDeclared, List.nil_append] at hapart ⊢
    have hobject := object.print_shows scope visible hscoped.1 hapart.left
    have hindex := index.print_shows scope visible hscoped.2 hapart.right
    exact hobject.bind hapart.left.disjoint fun _ => hindex.map _
  | call info receiver method arguments byRef =>
    simp only [Expr.gather_call, Expr.ownDeclared, List.nil_append] at hapart ⊢
    have hreceiver := receiver.print_shows scope visible hscoped.1 hapart.left
    have harguments := printAll_shows scope visible arguments hscoped.2 hapart.right
    -- without a table it does not matter whether the receiver or the arguments come first
    exact (harguments.bind hapart.right.disjoint fun _ => hreceiver.map _).congr
      (Option.bind_comm _ _) List.perm_append_comm.subset
  | staticCall info method arguments byRef =>
    have harguments := printAll_shows scope visible arguments hscoped (by simpa using hapart)
    exact (harguments.map _).congr rfl (by simp)
  | construct info constructor arguments =>
    have harguments := printAll_shows scope visible arguments hscoped (by simpa using hapart)
    exact (harguments.map _).congr rfl (by simp)
  | binary info op left right =>
    simp only [Expr.gather_binary, Expr.ownDeclared, List.nil_append] at hapart ⊢
    have hleft := left.print_shows scope visible hscoped.1 hapart.left
    have hright := right.print_shows scope visible hscoped.2 hapart.right
    exact hleft.bind hapart.left.disjoint fun _ => hright.map _
  | array info elements =>
    have helements := printAll_shows scope visible elements hscoped (by simpa using hapart)
    exact (helements.map _).congr rfl (by simp)
  | store info id value => exact hscoped.elim
  -- all temporaries are declared before the first store is printed
  | sequence info temps stores result =>
    obtain ⟨-, hstores, hresult⟩ := hscoped
    simp only [Expr.gather_sequence, Expr.ownDeclared] at hapart ⊢
    have hinner := hapart.behind
    have hbindings := printAll_stores_shows (scope.declare temps) _ visible temps stores hstores
      (List.Subset.refl _) hinner.left
    have hbehind := result.print_shows (scope.declare temps) _ hresult hinner.right
    rw [Expr.print, printStores_eq]
    simp only [bind_assoc, pure_bind]
    exact (hbindings.bind hinner.left.disjoint fun _ => hbehind.map _).declare
  | dynamicMember info receiver name indexable =>
    have hreceiver := receiver.print_shows scope visible hscoped (by simpa using hapart)
    exact (hreceiver.map _).congr rfl (by simp)
  | dynamicElement info receiver arguments names refKinds =>
    simp only [Expr.gather_dynamicElement, Expr.ownDeclared, List.nil_append] at hapart ⊢
    have hreceiver := receiver.print_shows scope visible hscoped.1 hapart.left
    have harguments := printAll_shows scope visible arguments hscoped.2 hapart.right
    exact hreceiver.bind hapart.left.disjoint fun _ => harguments.labelled _ names refKinds _
termination_by structural expr

/-- Well-scoped expressions in a row print as their texts. -/
theorem printAll_shows (scope : Declared) (visible : List TempId) (exprs : List Expr)
    (hscoped : ScopedAll visible exprs)
    (hapart : Apart visible (exprs.flatMap Expr.declared)) :
    Shows scope visible (exprs.flatMap Expr.declared) (printAll symbols exprs)
      (textsIn symbols scope exprs) := by
  cases exprs with
  | nil => exact Shows.pure _
  | cons expr exprs =>
    rw [List.flatMap_cons] at hapart ⊢
    have hhead := expr.print_shows scope visible hscoped.1 hapart.left
    have htail := printAll_shows scope visible exprs hscoped.2 hapart.right
    exact hhead.bind hapart.left.disjoint fun _ => htail.map _
termination_by structural exprs

/-- The stores of a sequence print where all its temporaries are declared, although each sees only
those in front of its own. -/
theorem printAll_stores_shows (scope : Declared) (visible front : List TempId)
    (temps : List Temp) (stores : List Expr) (hscoped : ScopedBindings front temps stores)
    (hsub : scopeBehind front temps ⊆ visible)
    (hapart : Apart visible (stores.flatMap Expr.declared)) :
    Shows scope visible (stores.flatMap Expr.declared) (printAll symbols stores)
      (textsIn symbols scope stores) := by
  cases stores with
  | nil => exact Shows.pure _
  | cons store stores =>
    cases temps with
    | nil => cases store <;> exact hscoped.elim
    | cons temp temps =>
      cases store with
      | store info id value =>
        obtain ⟨⟨hvalue, rfl⟩, hrest⟩ := hscoped
        rw [scopeBehind_cons] at hsub
        have hown : temp.id ∈ visible := hsub (mem_scopeBehind.mpr (.inr List.mem_cons_self))
        -- what a store may read is declared in front of it, and so among everything declared
        have hfront : front ⊆ visible := fun id hid =>
          hsub (mem_scopeBehind.mpr (.inr (List.mem_cons_of_mem _ hid)))
        simp only [List.flatMap_cons, Expr.gather_store, Expr.ownDeclared, List.nil_append]
          at hapart ⊢
        have hhead := value.print_shows scope visible (hvalue.mono hfront) hapart.left
        have htail := printAll_stores_shows scope visible _ temps stores hrest hsub hapart.right
        have hstore := hhead.bind hapart.left.disjoint fun text => Shows.store hown text
        exact (hstore.congr rfl (by simp)).bind hapart.left.disjoint fun _ => htail.map _
      | _ => exact hscoped.elim
termination_by structural stores

end

/-- An assignable element prints as its operands do, one after the other. What the first operands
declare is visible to the printer in later ones, but by `Apart` these do not name it. -/
theorem Place.print_shows (scope : Declared) (visible : List TempId) (place : Place)
    (hscoped : ScopedAll visible place.operands)
    (hapart : Apart visible (place.operands.flatMap Expr.declared)) :
    Shows scope visible (place.operands.flatMap Expr.declared) (place.print symbols)
      (place.textIn symbols scope) := by
  cases place with
  | indexer receiver symbol _ _ arguments shape =>
    -- the receiver is printed first, and it declares none of the arguments' temporaries
    simp only [Place.operands, List.flatMap_cons] at hapart ⊢
    have hreceiver := receiver.print_shows symbols scope visible hscoped.1 hapart.left
    have harguments := printAll_shows symbols scope visible arguments hscoped.2 hapart.right
    exact hreceiver.bind hapart.left.disjoint fun _ =>
      harguments.labelled _ shape.names shape.refKinds _
  | dynamic receiver arguments names refKinds =>
    simp only [Place.operands, List.flatMap_cons] at hapart ⊢
    have hreceiver := receiver.print_shows symbols scope visible hscoped.1 hapart.left
    have harguments := printAll_shows symbols scope visible arguments hscoped.2 hapart.right
    exact hreceiver.bind hapart.left.disjoint fun _ => harguments.labelled _ names refKinds _
  | element object index =>
    simp only [Place.operands, List.flatMap_cons, List.flatMap_nil, List.append_nil]
      at hapart ⊢
    have hobject := object.print_shows symbols scope visible hscoped.1 hapart.left
    have hindex := index.print_shows symbols scope visible hscoped.2.1 hapart.right
    exact hobject.bind hapart.left.disjoint fun _ => hindex.map _

/-- A target prints its stores and its place in the scope of its temporaries. -/
theorem Target.print_shows (target : Target) (hscoped : target.Scoped [])
    (hnodup : target.declared.Nodup) :
    Shows [] [] target.declared (target.print symbols) (target.scopedText symbols) := by
  obtain ⟨-, hstores, hplace⟩ := hscoped
  have hapart : Apart [] target.declared := ⟨hnodup, List.disjoint_nil_right _⟩
  rw [Target.declared] at hapart ⊢
  have hinner := hapart.behind
  have hbindings := printAll_stores_shows symbols (Declared.declare [] target.temps) _ []
    target.temps target.stores hstores (List.Subset.refl _) hinner.left
  have hbehind := target.place.print_shows symbols (Declared.declare [] target.temps) _ hplace
    hinner.right
  rw [Target.print, printStores_eq]
  simp only [bind_assoc, pure_bind]
  exact (hbindings.bind hinner.left.disjoint fun _ => hbehind.map _).declare

end Scoped

/-! ## §5 Validated code -/

/-- Printing that starts with an empty table gives the text of the empty scope. -/
private theorem Shows.eq_some {α : Type} {declared : List TempId} {print : StateM Declared α}
    {shown? : Option α} (h : Shows [] [] declared print shown?) :
    shown? = some (print.run []).1 :=
  (h [] fun _ hid => absurd hid List.not_mem_nil).1

/-- Code that the scope check accepts has a text by scope, and it is printed as this text: the one
table that the printer fills never answers with a name from another scope. -/
theorem Lowered.scopedText_of_faults_eq_nil (symbols : SymbolTable) :
    (∀ expr : Expr, expr.faults = [] →
        expr.textIn symbols [] = some (expr.text symbols)) ∧
      ∀ lowered : Lowered, lowered.faults = [] →
        lowered.scopedText symbols = some (lowered.text symbols) := by
  have hexpr : ∀ expr : Expr, expr.faults = [] →
      expr.textIn symbols [] = some (expr.text symbols) := by
    intro expr hfaults
    -- accepted code is well-scoped and declares nothing twice, which is all that is needed
    obtain ⟨hscoped, hnodup, -⟩ := (Lowered.value expr).faults_eq_nil_iff.mp hfaults
    have hapart : Apart [] expr.declared := ⟨hnodup, List.disjoint_nil_right _⟩
    exact (expr.print_shows symbols [] [] hscoped hapart).eq_some
  refine ⟨hexpr, ?_⟩
  intro lowered hfaults
  cases lowered with
  | value expr => exact hexpr expr hfaults
  | target assignable =>
    obtain ⟨hscoped, hnodup, -⟩ := (Lowered.target assignable).faults_eq_nil_iff.mp hfaults
    exact (assignable.print_shows symbols hscoped hnodup).eq_some

/-- A call whose receiver and whose argument both declare a temporary, and a target that binds
storage in front of it. -/
theorem Lowered.scopedText_of_call :
    let method : Method :=
      { name := "At", declaringType := .invalid, params := [], returnType := .invalid }
    let symbols : SymbolTable := ⟨#[.localVar ⟨"list", .invalid, false⟩, .method method]⟩
    let info : Info := ⟨.invalid, .unknown⟩
    let twice (id : TempId) (name : String) (value : Expr) : Expr :=
      .sequence info [⟨id, name, .invalid, .copy⟩] [.store info id value]
        (.binary info .add (.temp info id) (.temp info id))
    let call : Expr := .call info (twice ⟨1⟩ "a" (.self info)) ⟨1⟩
      [twice ⟨2⟩ "b" (.literal info (.int 2))] false
    let target : Lowered := .target ⟨[⟨⟨0⟩, "c", .invalid, .storage⟩],
      [.store info ⟨0⟩ (.var info ⟨0⟩)], .element (.temp info ⟨0⟩) call, info⟩
    (call.faults = [] ∧ call.textIn symbols [] = some (call.text symbols)) ∧
      (target.faults = [] ∧ target.scopedText symbols = some (target.text symbols)) ∧
        target.text symbols = "\x7b ref c = list; \x7d element " ++
          "c[\x7b a = this; (a + a) \x7d.At(\x7b b = 2; (b + b) \x7d)]" := by
  intro method symbols info twice call target
  have hcall : call.faults = [] := rfl
  have htarget : target.faults = [] := rfl
  refine ⟨⟨hcall, ?_⟩, ⟨htarget, ?_⟩, by decide⟩
  · exact (Lowered.scopedText_of_faults_eq_nil symbols).1 call hcall
  · exact (Lowered.scopedText_of_faults_eq_nil symbols).2 target htarget

end Subscript.Code
