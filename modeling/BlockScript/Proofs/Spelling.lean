import BlockScript.Listing
import BlockScript.Proofs.Held
import BlockScript.Proofs.Shape

/-!
# What a listing writes

`Chain.speech` and `Chain.lines` give the text of an expression and the lines of a chain as
functions of the tree and of the symbols that its fields name, without any walk over a graph. The
text of a value is that of a comparison or of a call (`Chain.IsValue.spelled`), and in either case a
row of words that can be an argument (`Chain.IsValue.speech_isRow`).
-/

namespace BlockScript

variable {α : Type}

/-! ### The texts of a block -/

/-- The sign of a comparison. -/
def Opcode.relation? (opcode : String) : Option Relation :=
  if opcode == greater then some .greater
  else if opcode == less then some .less
  else if opcode == equals then some .equal
  else none

/-- The text that a field of a node shows. -/
def Node.fieldText? (symbols : Symbols) (node : Node) (name : String) : Option String :=
  ((node.fieldDict? symbols).bind (·.find? name)).map Field.text

/-- The fields of a node as they are written. -/
def Node.fieldTexts (symbols : Symbols) (node : Node) (specs : List FieldSpec) : List String :=
  specs.map fun spec ↦
    Token.format ((node.fieldText? symbols spec.name).getD (spec.default?.getD ""))

/-- The name of an argument of a procedure as it is written. -/
def Node.argumentName (symbols : Symbols) (node : Node) : String :=
  Token.format (Text.nameOr ((node.fieldText? symbols "VALUE").getD "") "input")

/-- The signature of the procedure that a node is about, if it has one. -/
def Node.signature? (symbols : Symbols) (node : Node) : Option String :=
  ((node.procedure? symbols).join).map Procedure.signature

/-- The signature that a call shows. -/
def Node.calledSignature (symbols : Symbols) (node : Node) : String :=
  match node.signature? symbols with
  | some signature => Text.nameOr signature SymbolKind.procedures.fallbackName
  | none => SymbolKind.procedures.fallbackName

/-- The text that a menu shows. -/
def Chain.choice (symbols : Symbols) : Chain α → String
  | .nil => ""
  | .cons _ node _ _ =>
    match (node.fieldDict? symbols).bind fun fields ↦ fields.values.head? with
    | some field => field.text
    | none => ""

/-- The constant of a slot, or the fallback where it is empty. -/
def Literal.textOr (constant : Option Literal) (fallback : String) : String :=
  match constant with
  | some value => Text.orElse value.text fallback
  | none => fallback

/-- A slot as it is written, given the text of its value and the one its menu shows. -/
def InputSpec.spell (spec : InputSpec) (site : Listing.Site) (constant : Option Literal)
    (speech choice : String) : String :=
  match spec.kind with
  | .menu =>
    if speech.isEmpty then
      Token.format (Text.orElse choice (Literal.textOr constant spec.defaultText))
    else Listing.marked speech
  | .boolean => Text.orElse speech (Text.orElse spec.defaultText "false")
  | kind =>
    if speech.isEmpty then
      Listing.constantText kind (Literal.textOr constant spec.defaultText) spec.defaultText
    else if site = .call && kind != .text then speech
    else Listing.marked speech

/-- An operand of a comparison as it is written. -/
def Literal.operandText (constant : Option Literal) (speech : String) : String :=
  if speech.isEmpty then
    match constant with
    | some value => Token.format value.text
    | none => "0"
  else speech

section

variable (catalog : Catalog) (symbols : Symbols)

mutual

/-- The text of an expression. -/
def Chain.speech : Chain α → String
  | .nil => ""
  | .cons _ node slots _ =>
    match Opcode.relation? node.opcode, slots.operands with
    | some relation, [left, right] => Comparison.write left relation right
    | _, _ =>
      match catalog.expressionFor? node.opcode with
      | none => ""
      | some c =>
        if node.opcode == Opcode.argument || node.opcode == Opcode.booleanArgument then
          Call.write c.name [node.argumentName symbols]
        else Call.write c.name (node.fieldTexts symbols c.fields ++ slots.texts .call c.inputs)

/-- The texts of inputs. -/
def Slots.texts (site : Listing.Site) : List InputSpec → Slots α → List String
  | spec :: specs, .cons _ constant value shadow rest =>
    spec.spell site constant value.speech (shadow.choice symbols) :: rest.texts site specs
  | _, _ => []

/-- The texts of operands. -/
def Slots.operands : Slots α → List String
  | .nil => []
  | .cons _ constant value _ rest => Literal.operandText constant value.speech :: rest.operands

end

/-- The sub-chains with these names, with the word for else between them. -/
def Listing.branchLines (bodies : List (String × List String)) (depth : Nat) :
    List String → List String
  | [] => []
  | [name] => (bodies.lookup name).getD []
  | name :: rest => (bodies.lookup name).getD [] ++
      Listing.indent depth ((catalog.keyword? .otherwise).getD "else") ::
        branchLines bodies depth rest

/-- The signature that the head of a procedure shows. -/
def Slots.signature : Slots α → String
  | .cons _ _ _ (.cons _ node _ _) _ =>
    match node.signature? symbols with
    | some signature => Text.orElse signature SymbolKind.procedures.fallbackName
    | none => SymbolKind.procedures.fallbackName
  | _ => SymbolKind.procedures.fallbackName

/-- The lines of a block, given those of its sub-chains. -/
def Node.lines (node : Node) (slots : Slots α) (bodies : List (String × List String))
    (depth : Nat) : List String :=
  if node.opcode == Opcode.definition then
    [Listing.indent depth ("define " ++ slots.signature symbols)]
  else if node.opcode == Opcode.call then
    [Listing.indent depth ("call " ++ node.calledSignature symbols)]
  else match Listing.headerCommand? catalog { opcode := node.opcode } with
    | none => []
    | some c =>
      let header := Listing.indent depth (Listing.commandLine c.name
        (node.fieldTexts symbols c.fields ++ slots.texts catalog symbols .line c.inputs))
      if c.kind != .nesting then [header]
      else header :: Listing.branchLines catalog bodies depth
        (Listing.stackNames catalog c { opcode := node.opcode }) ++
          [Listing.indent depth ((catalog.keyword? .finish).getD "end")]

mutual

/-- The lines of a chain. -/
def Chain.lines (depth : Nat) : Chain α → List String
  | .nil => []
  | .cons _ node slots rest =>
    node.lines catalog symbols slots (slots.bodies (depth + 1)) depth ++ rest.lines depth

/-- The lines of all chains in slots. -/
def Slots.bodies (depth : Nat) : Slots α → List (String × List String)
  | .nil => []
  | .cons input _ value _ rest => (input, value.lines depth) :: rest.bodies depth

end

end

mutual

/-- The tags of a chain without those of shadows: the blocks that a walk enters. -/
def Chain.entered : Chain α → List α
  | .nil => []
  | .cons tag _ slots rest => tag :: (slots.entered ++ rest.entered)

/-- The tags in slots without those of shadows. -/
def Slots.entered : Slots α → List α
  | .nil => []
  | .cons _ _ value _ rest => value.entered ++ rest.entered

end

mutual

/-- The blocks that a walk enters are among those of the chain, in the same order. -/
theorem Chain.entered_sublist : ∀ c : Chain α, c.entered.Sublist c.tags
  | .nil => .slnil
  | .cons _ _ slots rest => .cons_cons _ (slots.entered_sublist.append rest.entered_sublist)

/-- The blocks that a walk enters are among those of the slots, in the same order. -/
theorem Slots.entered_sublist : ∀ s : Slots α, s.entered.Sublist s.tags
  | .nil => .slnil
  | .cons _ _ value _ rest =>
    (value.entered_sublist.append rest.entered_sublist).trans (List.sublist_append_right _ _)

end

/-! ### Rows of words -/

/-- The characters that a written expression may hold outside quotes and parentheses. -/
def isRowChar (c : Char) : Bool :=
  isWordChar c || c == ' ' || Relation.isSignChar c

/-- Words and signs in a row. -/
structure IsRow (p : List Char) : Prop where
  phrase : Phrase isRowChar p
  ne_nil : p ≠ []
  trim : Chars.trim p = p

/-- A word is a row by itself. -/
theorem IsWord.isRow {p : List Char} (h : IsWord p) : IsRow p :=
  ⟨h.phrase.mono fun c hc ↦ by simp [isRowChar, hc], h.ne_nil, h.trim⟩

/-- A word of plain characters. -/
theorem isWord_of_plain {p : List Char} (h : ∀ c ∈ p, Chars.isPlain c = true) (hne : p ≠ []) :
    IsWord p :=
  ⟨.of_word fun c hc ↦ by simp [isWordChar, h c hc], hne⟩

namespace IsRow

variable {p q : List Char}

/-- A row is an argument of its own. -/
theorem argument (h : IsRow p) : Phrase (· != ',') p ∧ p ≠ [] := by
  refine ⟨h.phrase.mono fun c hc ↦ ?_, h.ne_nil⟩
  simp only [bne_iff_ne, ne_eq]
  rintro rfl
  revert hc
  decide

/-- A row does not start with white space. -/
theorem head?_not_white (h : IsRow p) : ∀ c ∈ p.head?, Text.isWhite c = false := by
  have := Chars.head?_trim p
  rwa [h.trim] at this

/-- A row does not end with white space. -/
theorem getLast?_not_white (h : IsRow p) : ∀ c ∈ p.getLast?, Text.isWhite c = false := by
  have := Chars.getLast?_trim p
  rwa [h.trim] at this

/-- Two rows with signs or spaces between them are a row. -/
theorem append {between : List Char} (hp : IsRow p) (hb : Phrase isRowChar between)
    (hq : IsRow q) : IsRow (p ++ (between ++ q)) := by
  refine ⟨hp.phrase.append (hb.append hq.phrase), by simp [hp.ne_nil], ?_⟩
  refine Chars.trim_eq_self (fun c hc ↦ hp.head?_not_white c ?_) fun c hc ↦
    hq.getLast?_not_white c ?_
  · obtain ⟨d, hd⟩ := Option.ne_none_iff_exists'.1 (mt List.head?_eq_none_iff.1 hp.ne_nil)
    rw [List.head?_append, hd] at hc
    rwa [hd]
  · obtain ⟨d, hd⟩ := Option.ne_none_iff_exists'.1 (mt List.getLast?_eq_none_iff.1 hq.ne_nil)
    rw [List.getLast?_append, List.getLast?_append, hd] at hc
    rwa [hd]

/-- A comparison of two rows is a row. -/
theorem comparison {left right : String} (hl : IsRow left.toList) (hr : IsRow right.toList)
    (relation : Relation) : IsRow (Comparison.write left relation right).toList := by
  have hsign : Phrase isRowChar relation.symbol.toList :=
    .of_ordinary (by cases relation <;> decide)
  have hspace : Phrase isRowChar [' '] := .char (by decide) (by decide) .nil
  have hsplit : (Comparison.write left relation right).toList =
      left.toList ++ ((' ' :: relation.symbol.toList ++ [' ']) ++ right.toList) := by
    simp [Comparison.toList_write]
  rw [hsplit]
  refine hl.append ?_ hr
  exact Phrase.append (.char (by decide) (by decide) hsign) hspace

/-- An expression behind its mark. -/
theorem marked {text : String} (h : IsRow text.toList) : IsRow (Listing.marked text).toList := by
  have hsplit : (Listing.marked text).toList = '@' :: text.toList := by
    simp [Listing.marked]
  rw [hsplit]
  refine ⟨.char (by decide) (by decide) h.phrase, List.cons_ne_nil _ _,
    Chars.trim_eq_self (fun c hc ↦ ?_) fun c hc ↦ ?_⟩
  · obtain rfl := Option.some.inj hc
    decide
  · obtain ⟨d, hd⟩ := Option.ne_none_iff_exists'.1 (mt List.getLast?_eq_none_iff.1 h.ne_nil)
    refine h.getLast?_not_white c ?_
    rw [List.getLast?_cons, hd] at hc
    rwa [hd]

end IsRow

/-! ### The texts of constants -/

/-- A text of plain characters, which is not empty. -/
def Text.IsPlain (s : String) : Prop :=
  (∀ c ∈ s.toList, Chars.isPlain c = true) ∧ s.toList ≠ []

/-- A text of plain characters is a word. -/
theorem Text.IsPlain.isWord {s : String} (h : Text.IsPlain s) : IsWord s.toList :=
  isWord_of_plain h.1 h.2

/-- A number or its fallback is written with plain characters. -/
theorem isPlain_numeric (text fallback : String) :
    Text.IsPlain (Listing.numeric text fallback) := by
  unfold Listing.numeric
  split
  · exact Number.format_plain _
  · exact ⟨List.all_eq_true.1 (by decide), by decide⟩

/-- A digit of a hexadecimal number is a plain character. -/
theorem Hex.isPlain_of_digitValue? {c : Char} (h : (digitValue? c).isSome = true) :
    Chars.isPlain c = true := by
  have halphanum : c.isAlphanum = true := by
    unfold digitValue? at h
    split at h
    · next hdigit => simp [Char.isAlphanum, hdigit]
    · split at h
      · next hlower =>
        have hfirst : 97 ≤ c.toNat := UInt32.le_iff_toNat_le.1 hlower.1
        have hlast : c.toNat ≤ 102 := UInt32.le_iff_toNat_le.1 hlower.2
        exact isAlphanum_iff.2 (by omega)
      · split at h
        · next hupper =>
          have hfirst : 65 ≤ c.toNat := UInt32.le_iff_toNat_le.1 hupper.1
          have hlast : c.toNat ≤ 70 := UInt32.le_iff_toNat_le.1 hupper.2
          exact isAlphanum_iff.2 (by omega)
        · cases h
  simp [Chars.isPlain, halphanum]

/-- A color is written with plain characters. -/
theorem isPlain_of_isHexColor {s : String} (h : isHexColor s = true) : Text.IsPlain s := by
  unfold isHexColor at h
  split at h
  · next digits hs =>
    rw [Text.IsPlain, hs]
    refine ⟨fun c hc ↦ ?_, List.cons_ne_nil _ _⟩
    rcases List.mem_cons.1 hc with rfl | hc
    · decide
    · simp only [Bool.and_eq_true, List.all_eq_true] at h
      exact Hex.isPlain_of_digitValue? (h.2 c hc)
  · cases h

/-- A number or a color is plain, and any other constant is a token. -/
theorem constantText_cases {spec : InputSpec} (hspec : spec.IsRegular) (text : String) :
    Text.IsPlain (Listing.constantText spec.kind text spec.defaultText) ∨
      (spec.kind = .text ∨ spec.kind = .menu ∨ spec.kind = .boolean) ∧
        Listing.constantText spec.kind text spec.defaultText = Token.format text := by
  unfold Listing.constantText
  split
  · exact .inl (isPlain_numeric _ _)
  · next hnumeric =>
    split
    · next hcolor =>
      left
      split
      · next hhex => exact isPlain_of_isHexColor hhex
      · exact isPlain_of_isHexColor (hspec.color hcolor)
    · next hcolor =>
      refine .inr ⟨?_, rfl⟩
      cases hkind : spec.kind <;> simp_all [SlotKind.isNumeric]

/-- A constant is written as a word. -/
theorem isWord_constantText {spec : InputSpec} (hspec : spec.IsRegular) (text : String) :
    IsWord (Listing.constantText spec.kind text spec.defaultText).toList := by
  rcases constantText_cases hspec text with hplain | ⟨-, htoken⟩
  · exact hplain.isWord
  · rw [htoken]
    exact Token.isWord_format _

/-- A text that is not empty needs no fallback. -/
theorem Text.orElse_of_ne {value : String} (h : value ≠ "") (fallback : String) :
    orElse value fallback = value := by
  simp [orElse, h]

/-- A slot is written as a row, if its value is. -/
theorem InputSpec.isRow_spell {spec : InputSpec} (hspec : spec.IsRegular) (site : Listing.Site)
    (constant : Option Literal) {speech : String} (hspeech : speech = "" ∨ IsRow speech.toList)
    (choice : String) : IsRow (spec.spell site constant speech choice).toList := by
  have hmarked : ¬ speech.isEmpty = true → IsRow (Listing.marked speech).toList := fun hne ↦
    (hspeech.resolve_left fun h ↦ hne (by rw [h]; rfl)).marked
  unfold spell
  split
  · split
    · exact (Token.isWord_format _).isRow
    · next hne => exact hmarked hne
  · next hkind =>
    have hdefault : spec.defaultText = "" := by rw [defaultText, hspec.condition hkind]; rfl
    rcases hspeech with rfl | hrow
    · rw [hdefault]
      have hfalse : IsWord "false".toList :=
        isWord_of_plain (List.all_eq_true.1 (by decide)) (by decide)
      exact hfalse.isRow
    · have hne : speech ≠ "" := by
        rintro rfl
        exact hrow.ne_nil rfl
      rwa [Text.orElse_of_ne hne]
  · split
    · exact (isWord_constantText hspec _).isRow
    · next hne =>
      split
      · exact hspeech.resolve_left fun h ↦ hne (by rw [h]; rfl)
      · exact hmarked hne

/-- An operand of a comparison is written as a row. -/
theorem Literal.isRow_operandText (constant : Option Literal) {speech : String}
    (hspeech : speech = "" ∨ IsRow speech.toList) :
    IsRow (operandText constant speech).toList := by
  unfold operandText
  split
  · cases constant with
    | some value => exact (Token.isWord_format _).isRow
    | none =>
      have hzero : IsWord "0".toList := isWord_of_plain (List.all_eq_true.1 (by decide)) (by decide)
      exact hzero.isRow
  · next hne => exact hspeech.resolve_left fun h ↦ hne (by rw [h]; rfl)

/-! ### Induction over values -/

/-- Every value in the slots has the property. -/
def Slots.EachValue (p : Chain α → Prop) : Slots α → Prop
  | .nil => True
  | .cons _ _ value _ rest => p value ∧ rest.EachValue p

/-- What every value has in a stronger form it has in a weaker one. -/
theorem Slots.EachValue.mono {p q : Chain α → Prop} (hpq : ∀ v, p v → q v) :
    ∀ {slots : Slots α}, slots.EachValue p → slots.EachValue q
  | .nil, _ => trivial
  | .cons .., ⟨h, hrest⟩ => ⟨hpq _ h, hrest.mono hpq⟩

variable {catalog : Catalog} {target : TargetKind} {symbols : Symbols}

/-- What every expression has, every value in the inputs of a command has. -/
theorem Slots.Fill.each {p : Chain α → Prop} {compares : Bool}
    (hp : ∀ v : Chain α, v.IsValue catalog target → v ≠ .nil → p v) :
    ∀ {specs : List InputSpec} {slots : Slots α}, slots.Fill catalog target compares specs [] →
      slots.EachValue fun v ↦ v ≠ .nil → p v
  | [], .nil, _ => trivial
  | [], .cons .., ⟨⟨_, _, _, hmem⟩, _⟩ => absurd hmem List.not_mem_nil
  | _ :: _, .cons .., ⟨_, hvalue, hrest⟩ => ⟨hp _ hvalue, hrest.each hp⟩
  | _ :: _, .nil, h => h.elim

mutual

/-- What a block has when the values in its slots have it, every value has. -/
theorem Chain.IsValue.induction {motive : Chain α → Prop}
    (step : ∀ tag node slots, (Chain.cons tag node slots .nil).IsValue catalog target →
      slots.EachValue (fun v ↦ v ≠ .nil → motive v) → motive (.cons tag node slots .nil)) :
    ∀ {c : Chain α}, c.IsValue catalog target → c ≠ .nil → motive c
  | .nil, _, hne => absurd rfl hne
  | .cons tag node slots rest, h, _ => by
    have hrest : rest = .nil := h.1
    subst hrest
    refine step tag node slots h ?_
    obtain ⟨-, c, -, -, -, -, hslots⟩ := h
    exact hslots.eachValue step

/-- The values in the inputs of a command have what blocks inherit from their slots. -/
theorem Slots.Fill.eachValue {motive : Chain α → Prop}
    (step : ∀ tag node slots, (Chain.cons tag node slots .nil).IsValue catalog target →
      slots.EachValue (fun v ↦ v ≠ .nil → motive v) → motive (.cons tag node slots .nil))
    {compares : Bool} : ∀ {specs : List InputSpec} {slots : Slots α},
    slots.Fill catalog target compares specs [] → slots.EachValue fun v ↦ v ≠ .nil → motive v
  | [], .nil, _ => trivial
  | [], .cons .., ⟨⟨_, _, _, hmem⟩, _⟩ => absurd hmem List.not_mem_nil
  | _ :: _, .cons .., ⟨_, hvalue, hrest⟩ => ⟨hvalue.induction step, hrest.eachValue step⟩
  | _ :: _, .nil, h => h.elim

end

/-! ### The text of a value -/

/-- A block has a sign if it is a comparison. -/
theorem Opcode.relation?_isSome (opcode : String) :
    (relation? opcode).isSome = isComparison opcode := by
  unfold relation? isComparison
  split
  · simp_all
  · split
    · simp_all
    · split <;> simp_all

/-- A command that compares has two operands. -/
theorem Catalog.IsRegular.eq_comparison (hcat : catalog.IsRegular) {c : Command}
    (hc : c ∈ catalog.commands.values) (hk : c.kind.makesBlock = true)
    (hcompares : Opcode.isComparison c.opcode = true) : ∃ name, c = .comparison name c.opcode := by
  have hopcode := (hcat.regular c hc).opcode?_eq hk
  simp only [Opcode.isComparison, Bool.or_eq_true, beq_iff_eq] at hcompares
  rcases hcompares with (h | h) | h
  · refine ⟨"gt", ?_⟩
    rw [h] at hopcode ⊢
    exact hcat.eq_of_opcode hc (hcat.essential _ (by decide)) hopcode rfl
  · refine ⟨"lt", ?_⟩
    rw [h] at hopcode ⊢
    exact hcat.eq_of_opcode hc (hcat.essential _ (by decide)) hopcode rfl
  · refine ⟨"equals", ?_⟩
    rw [h] at hopcode ⊢
    exact hcat.eq_of_opcode hc (hcat.essential _ (by decide)) hopcode rfl

/-- An expression makes a block. -/
theorem CommandKind.makesBlock_of_isExpression {kind : CommandKind}
    (h : kind.isExpression = true) : kind.makesBlock = true := by
  cases kind <;> first | rfl | cases h

/-- The arguments of a call that writes a block. -/
def Node.callTexts (symbols : Symbols) (node : Node) (c : Command) (texts : List String) :
    List String :=
  if node.opcode == Opcode.argument || node.opcode == Opcode.booleanArgument then
    [node.argumentName symbols]
  else node.fieldTexts symbols c.fields ++ texts

variable (catalog symbols) in
/-- How a value is written: as a comparison of two operands, or as a call. -/
inductive Chain.Spelled (target : TargetKind) : Chain α → Prop
  | comparison {tag : α} {node : Node} {relation : Relation} {first second : Option Literal}
    {left right : Chain α} (hrelation : Opcode.relation? node.opcode = some relation)
    (hleft : left.IsValue catalog target) (hright : right.IsValue catalog target)
    (hfirst : left = .nil → first.isSome) (hsecond : right = .nil → second.isSome)
    (htext : (Chain.cons tag node (.cons "OPERAND1" first left .nil
      (.cons "OPERAND2" second right .nil .nil)) .nil).speech catalog symbols =
        Comparison.write (Literal.operandText first (left.speech catalog symbols)) relation
          (Literal.operandText second (right.speech catalog symbols))) :
    Chain.Spelled target (.cons tag node (.cons "OPERAND1" first left .nil
      (.cons "OPERAND2" second right .nil .nil)) .nil)
  | call {tag : α} {node : Node} {slots : Slots α} {c : Command}
    (hc : c ∈ catalog.commands.values) (hkind : c.kind.isExpression = true)
    (havailable : c.isAvailableOn target = true) (hnode : node.Fits c)
    (hslots : slots.Fill catalog target false c.inputs [])
    (hrelation : Opcode.relation? node.opcode = none)
    (htext : (Chain.cons tag node slots .nil).speech catalog symbols = Call.write c.name
      (node.callTexts symbols c (slots.texts catalog symbols .call c.inputs))) :
    Chain.Spelled target (.cons tag node slots .nil)

/-- Every value is written in one of these two ways. -/
theorem Chain.IsValue.spelled (hcat : catalog.IsRegular) {tag : α} {node : Node} {slots : Slots α}
    {rest : Chain α} (h : (Chain.cons tag node slots rest).IsValue catalog target) :
    (Chain.cons tag node slots rest).Spelled catalog symbols target := by
  obtain ⟨rfl, c, hc, hkind, havailable, hnode, hslots⟩ := h
  have hblock := CommandKind.makesBlock_of_isExpression hkind
  cases hrelation : Opcode.relation? node.opcode with
  | some relation =>
    have hcompares : Opcode.isComparison c.opcode = true := by
      rw [← hnode.opcode, ← Opcode.relation?_isSome, hrelation]
      rfl
    obtain ⟨name, hname⟩ := hcat.eq_comparison hc hblock hcompares
    have hinputs : c.inputs = (Command.comparison name c.opcode).inputs := congrArg _ hname
    rw [hcompares, hinputs] at hslots
    -- the catalog has a comparison for this block, which has two operands and no more
    match slots, hslots with
    | .cons _ first left _ (.cons _ second right _ .nil), ⟨⟨rfl, hfirst, _, hleftNil⟩, hleft,
        ⟨rfl, hsecond, _, hrightNil⟩, hright, _⟩ =>
      obtain rfl := hfirst
      obtain rfl := hsecond
      refine .comparison hrelation hleft hright (fun hnil ↦ ?_) (fun hnil ↦ ?_) ?_
      · obtain ⟨literal, hliteral, -⟩ := hleftNil hnil
        rw [hliteral]
        rfl
      · obtain ⟨literal, hliteral, -⟩ := hrightNil hnil
        rw [hliteral]
        rfl
      · simp [Chain.speech, Slots.operands, hrelation]
  | none =>
    have hcompares : Opcode.isComparison c.opcode = false := by
      rw [← hnode.opcode, ← Opcode.relation?_isSome, hrelation]
      rfl
    rw [hcompares] at hslots
    refine .call hc hkind havailable hnode hslots hrelation ?_
    have hfor : catalog.expressionFor? node.opcode = some c := by
      rw [hnode.opcode]
      exact hcat.expressionFor? hc ((hcat.regular c hc).opcode?_eq hblock) hkind
    simp only [Chain.speech, hrelation, hfor, Node.callTexts]
    split <;> rfl

/-- Inputs are written as rows when their values are. -/
theorem Slots.texts_isRow (site : Listing.Site) : ∀ {specs : List InputSpec} {slots : Slots α},
    (∀ spec ∈ specs, spec.IsRegular) →
    slots.EachValue (fun v ↦ v ≠ .nil → IsRow (v.speech catalog symbols).toList) →
      ∀ text ∈ slots.texts catalog symbols site specs, IsRow text.toList
  | [], _, _, _, _, htext => absurd htext (by simp [Slots.texts])
  | _ :: _, .nil, _, _, _, htext => absurd htext (by simp [Slots.texts])
  | spec :: specs, .cons _ constant value shadow rest, hspecs, ⟨hvalue, hrest⟩, text, htext => by
    rw [Slots.texts] at htext
    rcases List.mem_cons.1 htext with rfl | htext
    · refine InputSpec.isRow_spell (hspecs spec List.mem_cons_self) site constant ?_ _
      by_cases hnil : value = .nil
      · subst hnil
        exact .inl (by simp [Chain.speech])
      · exact .inr (hvalue hnil)
    · exact rest.texts_isRow site (fun s hs ↦ hspecs s (List.mem_cons_of_mem _ hs)) hrest text htext

/-- The arguments of a call can be told apart. -/
theorem Node.callTexts_areArguments (node : Node) (c : Command) {texts : List String}
    (h : ∀ text ∈ texts, IsRow text.toList) :
    Chars.AreArguments ((node.callTexts symbols c texts).map String.toList) := by
  intro arg harg
  obtain ⟨text, htext, rfl⟩ := List.mem_map.1 harg
  refine IsRow.argument ?_
  unfold Node.callTexts at htext
  split at htext
  · rw [List.mem_singleton.1 htext]
    exact (Token.isWord_format _).isRow
  · rcases List.mem_append.1 htext with htext | htext
    · obtain ⟨spec, -, rfl⟩ := List.mem_map.1 htext
      exact (Token.isWord_format _).isRow
    · exact h text htext

/-- An operand is written as a row when its value is. -/
theorem Chain.operand_isRow (constant : Option Literal) {v : Chain α}
    (hv : v ≠ .nil → IsRow (v.speech catalog symbols).toList) :
    IsRow (Literal.operandText constant (v.speech catalog symbols)).toList := by
  refine Literal.isRow_operandText constant ?_
  cases v with
  | nil => exact .inl (by simp [Chain.speech])
  | cons => exact .inr (hv nofun)

/-- A value is written as a row. -/
theorem Chain.IsValue.speech_isRow (hcat : catalog.IsRegular) {c : Chain α}
    (h : c.IsValue catalog target) (hne : c ≠ .nil) : IsRow (c.speech catalog symbols).toList := by
  refine h.induction (motive := fun c ↦ IsRow (c.speech catalog symbols).toList)
    (fun tag node slots hvalue hslots ↦ ?_) hne
  have hspelled : (Chain.cons tag node slots .nil).Spelled catalog symbols target :=
    hvalue.spelled hcat
  cases hspelled with
  | comparison hrelation hleft hright hfirst hsecond htext =>
    rw [htext]
    exact (Chain.operand_isRow _ hslots.1).comparison (Chain.operand_isRow _ hslots.2.1) _
  | call hc hkind havailable hnode hfill hrelation htext =>
    rw [htext]
    have hregular := hcat.regular _ hc
    refine IsWord.isRow (Call.IsWritable.isWord ⟨hregular.name, ?_⟩)
    exact node.callTexts_areArguments _ (slots.texts_isRow .call hregular.inputs hslots)

/-! ### Induction over statements -/

/-- The sub-chains of slots put together are those of both. -/
theorem Slots.bodies_append (depth : Nat) : ∀ front back : Slots α,
    (front.append back).bodies catalog symbols depth =
      front.bodies catalog symbols depth ++ back.bodies catalog symbols depth
  | .nil, _ => by simp [Slots.append, Slots.bodies]
  | .cons _ _ _ _ rest, back => by
    simp [Slots.append, Slots.bodies, rest.bodies_append depth back]

/-- The blocks entered in slots put together are those of both. -/
theorem Slots.entered_append : ∀ front back : Slots α,
    (front.append back).entered = front.entered ++ back.entered
  | .nil, _ => by simp [Slots.append, Slots.entered]
  | .cons _ _ _ _ rest, back => by
    simp [Slots.append, Slots.entered, rest.entered_append back]

/-- The inputs of a command are written without regard to its sub-chains. -/
theorem Slots.Fill.texts_append {compares : Bool} (site : Listing.Site) (back : Slots α) :
    ∀ {specs : List InputSpec} {front : Slots α},
    front.Fill catalog target compares specs [] →
      (front.append back).texts catalog symbols site specs =
        front.texts catalog symbols site specs
  | [], _, _ => by simp [Slots.texts]
  | _ :: _, .cons .., ⟨_, _, hrest⟩ => by
    simp only [Slots.append, Slots.texts, hrest.texts_append site back]
  | _ :: _, .nil, h => h.elim

/-- The slots of a command without sub-chains have the names of its inputs. -/
theorem Slots.Fill.names_eq {compares : Bool} : ∀ {specs : List InputSpec} {front : Slots α},
    front.Fill catalog target compares specs [] → front.names = specs.map (·.name)
  | [], .nil, _ => rfl
  | [], .cons .., ⟨⟨_, _, _, hmem⟩, _⟩ => absurd hmem List.not_mem_nil
  | _ :: _, .cons .., ⟨⟨hname, _⟩, _, hrest⟩ => by
    rw [Slots.names, hrest.names_eq, hname, List.map_cons]
  | _ :: _, .nil, h => h.elim

/-- The sub-chains of a command. -/
def Command.branchNames (c : Command) : List String :=
  if c.kind = .nesting then c.stackNames else []

variable (catalog target) in
/-- What the block of a statement is made of: its inputs, and its sub-chains behind them. -/
structure Command.Makes (c : Command) (node : Node) (front back : Slots α) : Prop where
  mem : c ∈ catalog.commands.values
  available : c.isAvailableOn target = true
  fits : node.Fits c
  inputs : front.Fill catalog target (Opcode.isComparison c.opcode) c.inputs []
  branches : back.Fill catalog target (Opcode.isComparison c.opcode) [] c.branchNames

section

variable {motive : Chain α → Prop}

mutual

/-- What a chain of statements has when its sub-chains and the statements after the first have it,
every chain of statements has. -/
theorem Chain.IsBody.induction (nil : motive .nil)
    (cons : ∀ tag node front back rest (c : Command), c.kind.isStatement = true →
      c.Makes catalog target node front back → back.EachValue motive →
        rest.IsBody catalog target → motive rest →
          motive (.cons tag node (front.append back) rest)) :
    ∀ {c : Chain α}, c.IsBody catalog target → motive c
  | .nil, _ => nil
  | .cons tag node slots rest, ⟨⟨c, hmem, hkind, havailable, hnode, hslots⟩, hrest⟩ => by
    obtain ⟨front, back, rfl, hfront, hback, heach⟩ := hslots.halves nil cons
    exact cons tag node front back rest c hkind ⟨hmem, havailable, hnode, hfront, hback⟩ heach
      hrest (hrest.induction nil cons)

/-- The values of a statement split into inputs and sub-chains, and the sub-chains inherit the
property. -/
theorem Slots.Fill.halves (nil : motive .nil)
    (cons : ∀ tag node front back rest (c : Command), c.kind.isStatement = true →
      c.Makes catalog target node front back → back.EachValue motive →
        rest.IsBody catalog target → motive rest →
          motive (.cons tag node (front.append back) rest)) {compares : Bool} :
    ∀ {specs : List InputSpec} {names : List String} {slots : Slots α},
      slots.Fill catalog target compares specs names → ∃ front back : Slots α,
        slots = front.append back ∧
        front.Fill catalog target compares specs [] ∧ back.Fill catalog target compares [] names ∧
          back.EachValue motive
  | [], _, .nil, _ => ⟨.nil, .nil, rfl, trivial, trivial, trivial⟩
  | [], _, .cons input constant value shadow rest, ⟨hfirst, hbody, hrest⟩ => by
    obtain ⟨front, back, hsplit, hfront, hback, heach⟩ := hrest.halves nil cons
    -- where there are no more inputs, the front has no slots
    have hnil : front = .nil := by
      match front, hfront with
      | .nil, _ => rfl
      | .cons .., ⟨⟨_, _, _, hmem⟩, _⟩ => exact absurd hmem List.not_mem_nil
    subst hnil
    have hsplit : rest = back := hsplit
    exact ⟨.nil, .cons input constant value shadow rest, rfl, trivial, ⟨hfirst, hbody, hrest⟩,
      hbody.induction nil cons, hsplit ▸ heach⟩
  | _ :: _, _, .cons input constant value shadow rest, ⟨hfirst, hvalue, hrest⟩ => by
    obtain ⟨front, back, rfl, hfront, hback, heach⟩ := hrest.halves nil cons
    exact ⟨.cons input constant value shadow front, back, rfl, ⟨hfirst, hvalue, hfront⟩, hback,
      heach⟩
  | _ :: _, _, .nil, h => h.elim

end

end

/-! ### The lines of a statement -/

/-- The command that writes the block of a command: a conditional with two branches is written like
one with a single branch. -/
def Command.header (c : Command) : Command :=
  if c.opcode = Opcode.ifElse then .ifThen else c

namespace Catalog.IsRegular

variable {c : Command} (hcat : catalog.IsRegular) (hc : c ∈ catalog.commands.values)
  (hk : c.kind.makesBlock = true)

include hcat hc hk

/-- A word of the grammar is known by its block. -/
theorem eq_essential {d : Command} (hd : d ∈ Catalog.essential)
    (ho : d.opcode? = some c.opcode) : c = d :=
  hcat.eq_of_opcode hc (hcat.essential d hd) ((hcat.regular c hc).opcode?_eq hk) ho

/-- The two conditionals differ in their sub-chains alone. -/
theorem header_eq : c.header ∈ catalog.commands.values ∧ c.header.fields = c.fields ∧
    c.header.inputs = c.inputs ∧ c.header.kind = c.kind := by
  unfold Command.header
  split
  · next h =>
    obtain rfl := hcat.eq_essential hc hk (d := .ifElse) (by decide) (by rw [h]; rfl)
    exact ⟨hcat.essential _ (by decide), rfl, rfl, rfl⟩
  · exact ⟨hc, rfl, rfl, rfl⟩

/-- The command that writes a block is the header of its command. -/
theorem headerCommand? (hexpr : c.kind.isExpression = false) {b : Block}
    (hb : b.opcode = c.opcode) : Listing.headerCommand? catalog b = some c.header := by
  obtain ⟨hmem, -, -, hkind⟩ := hcat.header_eq hc hk
  have hheader : (!c.header.kind.isExpression) = true := by rw [hkind, hexpr]; rfl
  unfold Listing.headerCommand?
  unfold Command.header at hmem hheader ⊢
  rw [hb]
  split
  · next h =>
    have h : c.opcode = Opcode.ifElse := by simpa using h
    rw [if_pos h] at hmem hheader ⊢
    rw [hcat.commandFor? hmem rfl]
    exact Option.filter_some_pos hheader
  · next h =>
    have h : c.opcode ≠ Opcode.ifElse := by simpa using h
    rw [if_neg h] at hheader ⊢
    rw [hcat.commandFor? hc ((hcat.regular c hc).opcode?_eq hk)]
    exact Option.filter_some_pos hheader

/-- The sub-chains of a block are those of its command. -/
theorem stackNames (header : Command) {b : Block} (hb : b.opcode = c.opcode) :
    Listing.stackNames catalog header b = c.stackNames := by
  rw [Listing.stackNames, hb, hcat.commandFor? hc ((hcat.regular c hc).opcode?_eq hk)]
  rfl

/-- Only definitions define and only calls call. -/
theorem opcode_ne (hdefine : c.kind ≠ .define) :
    c.opcode ≠ Opcode.definition ∧ (c.kind ≠ .call → c.opcode ≠ Opcode.call) := by
  refine ⟨fun h ↦ ?_, fun hcall h ↦ ?_⟩
  · obtain rfl := hcat.eq_essential hc hk (d := .definition) (by decide) (by rw [h]; rfl)
    exact hdefine rfl
  · obtain rfl := hcat.eq_essential hc hk (d := .procedureCall) (by decide) (by rw [h]; rfl)
    exact hcall rfl

end Catalog.IsRegular

/-- Whether a command of this kind is written as a line with its arguments. -/
def CommandKind.isHeader : CommandKind → Bool
  | hat => true
  | stack => true
  | nesting => true
  | _ => false

/-- A command that is written as a line with arguments makes a block and is no expression. -/
theorem CommandKind.isHeader_facts {kind : CommandKind} (h : kind.isHeader = true) :
    kind.makesBlock = true ∧ kind.isExpression = false ∧ kind ≠ .define ∧ kind ≠ .call := by
  cases kind <;> simp_all [isHeader, makesBlock, isExpression]

/-- A statement is written as a line with its fields and inputs, and a nesting one with its
sub-chains below it. -/
theorem Node.lines_eq (hcat : catalog.IsRegular) {c : Command} (hc : c ∈ catalog.commands.values)
    (hk : c.kind.isHeader = true) {node : Node} (hnode : node.Fits c) (slots : Slots α)
    (bodies : List (String × List String)) (depth : Nat) :
    node.lines catalog symbols slots bodies depth =
      Listing.indent depth (Listing.commandLine c.header.name
        (node.fieldTexts symbols c.fields ++ slots.texts catalog symbols .line c.inputs)) ::
      if c.kind = .nesting then Listing.branchLines catalog bodies depth c.stackNames ++
        [Listing.indent depth ((catalog.keyword? .finish).getD "end")]
      else [] := by
  obtain ⟨hblock, hexpr, hdefine, hcall⟩ := CommandKind.isHeader_facts hk
  obtain ⟨-, hfields, hinputs, hkind⟩ := hcat.header_eq hc hblock
  obtain ⟨hne, hne'⟩ := hcat.opcode_ne hc hblock hdefine
  have hopcode : ({ opcode := node.opcode } : Block).opcode = c.opcode := hnode.opcode
  have hnames := hcat.stackNames hc hblock c.header hopcode
  rw [Node.lines, hcat.headerCommand? hc hblock hexpr hopcode]
  dsimp only
  rw [hnames]
  simp only [hnode.opcode, beq_iff_eq, hne, hne' hcall, if_false, hfields, hinputs, hkind,
    bne_iff_ne, ne_eq, ite_not]
  split <;> simp

/-- A call is written as one line with its signature. -/
theorem Node.lines_call (hcat : catalog.IsRegular) {c : Command}
    (hc : c ∈ catalog.commands.values) (hk : c.kind = .call) {node : Node} (hnode : node.Fits c)
    (slots : Slots α) (bodies : List (String × List String)) (depth : Nat) :
    node.lines catalog symbols slots bodies depth =
      [Listing.indent depth ("call " ++ node.calledSignature symbols)] := by
  have hopcode : node.opcode = Opcode.call := by
    rw [hnode.opcode, Command.opcode, (hcat.regular c hc).call hk]
    rfl
  rw [Node.lines, hopcode]
  rfl

end BlockScript
