import BlockScript.Proofs.Resemblance

/-!
# Reading what was written

What a listing writes for a legible tree reads back as a tree that resembles it. This file proves it
for the operands of a comparison (`Reading.operand_recalls`), for the slots of a block
(`Reading.inputs_recall`) and, by induction over the tree, for expressions
(`Chain.IsValue.recalls`).
-/

namespace BlockScript

variable {α : Type} {catalog : Catalog} {target : TargetKind} {symbols : Symbols}

/-! ### Quotes -/

theorem Chars.isWrapped_eq_false {cs : List Char} (h : (∀ c ∈ cs.head?, isQuoteMark c = false) ∨
    ∀ c ∈ cs.getLast?, isQuoteMark c = false) : Chars.isWrapped cs = false := by
  match cs, h with
  | [], _ => rfl
  | [_], _ => rfl
  | c :: d :: cs, h =>
    show (isQuoteMark c && (d :: cs).getLast? == some c) = false
    cases hmark : isQuoteMark c with
    | false => rfl
    | true =>
      simp only [Bool.true_and, beq_eq_false_iff_ne, ne_eq]
      intro hlast
      rcases h with h | h
      · cases (h c rfl).symm.trans hmark
      · have hc := h c (by rw [List.getLast?_cons_cons]; exact hlast)
        cases hc.symm.trans hmark

/-- A text without a quote at both of its ends has none to drop. -/
theorem Token.unquote_of_bare {s : String} (htrim : Chars.trim s.toList = s.toList)
    (h : (∀ c ∈ s.toList.head?, isQuoteMark c = false) ∨
      ∀ c ∈ s.toList.getLast?, isQuoteMark c = false) : unquote s = s := by
  rw [unquote, Chars.unquote, htrim, Chars.isWrapped_eq_false h]
  exact String.ofList_toList

namespace Comparison

variable {left right : String} {relation : Relation} {c : Char}

theorem mem_head? (hl : IsRow left.toList) (h : c ∈ (write left relation right).toList.head?) :
    c ∈ left.toList.head? := by
  obtain ⟨d, rest, hcs⟩ := List.exists_cons_of_ne_nil hl.ne_nil
  rw [toList_write, hcs] at h
  rw [hcs]
  exact h

theorem mem_getLast? (hr : IsRow right.toList)
    (h : c ∈ (write left relation right).toList.getLast?) : c ∈ right.toList.getLast? := by
  obtain ⟨d, hd⟩ := Option.ne_none_iff_exists'.1 (mt List.getLast?_eq_none_iff.1 hr.ne_nil)
  rw [toList_write, List.getLast?_append, List.getLast?_cons, List.getLast?_append,
    List.getLast?_cons, hd] at h
  rw [hd]
  exact h

end Comparison

/-! ### Comparisons and calls -/

/-- A value that compares is written as a comparison of two operands. -/
theorem Chain.IsValue.exists_comparison (symbols : Symbols) (hcat : catalog.IsRegular) {c : Chain α}
    (h : c.IsValue catalog target) (hcompares : c.compares = true) :
    ∃ tag node relation first second left right,
      c = .cons tag node (.cons "OPERAND1" first left .nil
        (.cons "OPERAND2" second right .nil .nil)) .nil ∧
      Opcode.relation? node.opcode = some relation ∧
      (left.IsValue catalog target ∧ (left = .nil → first.isSome)) ∧
      (right.IsValue catalog target ∧ (right = .nil → second.isSome)) ∧
      c.speech catalog symbols = Comparison.write
        (Literal.operandText first (left.speech catalog symbols)) relation
        (Literal.operandText second (right.speech catalog symbols)) := by
  match c, h, hcompares with
  | .cons tag node slots rest, h, hcompares =>
    have hspelled : (Chain.cons tag node slots rest).Spelled catalog symbols target :=
      h.spelled hcat
    cases hspelled with
    | call hc hkind havailable hnode hfill hrelation =>
      have hnone := Opcode.relation?_isSome node.opcode
      rw [hrelation] at hnone
      cases hnone.trans hcompares
    | comparison hrelation hleft hright hfirst hsecond htext =>
      exact ⟨_, _, _, _, _, _, _, rfl, hrelation, ⟨hleft, hfirst⟩, ⟨hright, hsecond⟩, htext⟩

/-- A value that does not compare is written as a call. -/
theorem Chain.IsValue.exists_call (symbols : Symbols) (hcat : catalog.IsRegular) {c : Chain α}
    (h : c.IsValue catalog target) (hne : c ≠ .nil) (hcompares : c.compares = false) :
    ∃ name args, Call.IsWritable name args ∧ c.speech catalog symbols = Call.write name args := by
  match c, h, hcompares with
  | .nil, _, _ => exact absurd rfl hne
  | .cons tag node slots rest, h, hcompares =>
    have hslots : slots.EachValue fun v ↦ v ≠ .nil → IsRow (v.speech catalog symbols).toList := by
      obtain ⟨-, c, -, -, -, -, hfill⟩ := h
      exact hfill.each fun v hv ↦ hv.speech_isRow hcat
    have hspelled : (Chain.cons tag node slots rest).Spelled catalog symbols target :=
      h.spelled hcat
    cases hspelled with
    | comparison hrelation =>
      have hnone := Opcode.relation?_isSome node.opcode
      rw [hrelation] at hnone
      cases hnone.trans hcompares
    | call hc hkind havailable hnode hfill hrelation htext =>
      have hregular := hcat.regular _ hc
      exact ⟨_, _, ⟨hregular.name, node.callTexts_areArguments _
        (slots.texts_isRow .call hregular.inputs hslots)⟩, htext⟩

namespace Call.IsWritable

variable {name : String} {args : List String}

/-- A call is not in quotes. -/
theorem unquote (h : IsWritable name args) : Token.unquote (write name args) = write name args := by
  obtain ⟨c, rest, hcs, -, hc⟩ := h.head
  refine Token.unquote_eq_self h.isWord fun d hd ↦ ?_
  rw [hcs] at hd
  obtain rfl := Option.some.inj hd
  exact hc

theorem ne_empty (h : IsWritable name args) : write name args ≠ "" := by
  intro hempty
  exact h.isWord.ne_nil (by rw [hempty]; rfl)

theorem trim (h : IsWritable name args) : Text.trim (write name args) = write name args := by
  rw [Text.trim, h.isWord.trim, String.ofList_toList]

end Call.IsWritable

/-- Each argument is shorter than the call. -/
theorem Call.length_lt_write (name : String) {args : List String} {arg : String}
    (harg : arg ∈ args) : arg.length < (Call.write name args).length := by
  have hlist := congrArg List.length (Call.toList_write name args)
  have hmem : arg.toList.length ≤
      (List.intercalate [',', ' '] (args.map String.toList)).length := by
    clear hlist
    induction args with
    | nil => cases harg
    | cons first rest ih =>
      cases rest with
      | nil =>
        rw [List.mem_singleton.1 harg]
        simp
      | cons second rest =>
        simp only [List.map_cons, List.intercalate_cons_cons, List.length_append] at ih ⊢
        rcases List.mem_cons.1 harg with rfl | harg
        · omega
        · have := ih harg
          omega
  simp only [Chars.callText, List.length_append, List.length_cons, List.length_nil,
    String.length_toList] at hlist hmem
  omega

theorem Literal.operandText_of_ne {constant : Option Literal} {speech : String} (h : speech ≠ "") :
    operandText constant speech = speech := by
  simp [operandText, h]

theorem InputSpec.Admits.literal {spec : InputSpec} {compares : Bool}
    {constant : Option Literal} {value shadow : Chain α}
    (h : spec.Admits compares constant value shadow) (hmenu : spec.kind ≠ .menu)
    (hboolean : spec.kind ≠ .boolean) : shadow = .nil ∧
      (compares = false → constant.isSome = true) ∧
      (value = .nil → ∃ literal, constant = some literal ∧ (spec.kind = .text → compares = false →
        spec.isExpression literal.text = false)) := by
  unfold InputSpec.Admits at h
  split at h
  · next hkind => exact absurd hkind hmenu
  · next hkind => exact absurd hkind hboolean
  · exact h

/-- Only menus have shadow blocks. -/
theorem InputSpec.Admits.shadow_eq_nil {spec : InputSpec} {compares : Bool}
    {constant : Option Literal} {value shadow : Chain α}
    (h : spec.Admits compares constant value shadow) (hmenu : spec.kind ≠ .menu) :
    shadow = .nil := by
  by_cases hboolean : spec.kind = .boolean
  · simp only [InputSpec.Admits, hboolean] at h
    exact h.2.1
  · exact (h.literal hmenu hboolean).1

/-- Only a condition can be a comparison, since every other slot has a fallback. -/
theorem InputSpec.Admits.compares_eq_false {spec : InputSpec} {constant : Option Literal}
    {value shadow : Chain α} (h : spec.Admits false constant value shadow)
    (hkind : spec.kind ≠ .boolean)
    (hstands : value.compares = true → constant = none ∧ shadow = .nil) :
    value.compares = false := by
  refine Bool.eq_false_iff.2 fun hcompares ↦ ?_
  obtain ⟨rfl, rfl⟩ := hstands hcompares
  by_cases hmenu : spec.kind = .menu
  · simp only [InputSpec.Admits, hmenu] at h
    obtain ⟨-, tag, opcode, field, -, hshadow, -⟩ := h
    cases hshadow
  · cases (h.literal hmenu hkind).2.1 rfl

/-- A condition is written as its value. -/
theorem InputSpec.spell_condition (hcat : catalog.IsRegular) {spec : InputSpec}
    (hkind : spec.kind = .boolean) {value : Chain α} (hvalue : value.IsValue catalog target)
    (hne : value ≠ .nil) (site : Listing.Site) (constant : Option Literal) (choice : String) :
    spec.spell site constant (value.speech catalog symbols) choice =
      value.speech catalog symbols := by
  have hrow : IsRow (value.speech catalog symbols).toList := hvalue.speech_isRow hcat hne
  unfold spell
  rw [hkind]
  exact Text.orElse_of_ne (fun hempty ↦ hrow.ne_nil (by rw [hempty]; rfl)) _

/-- A command that gives the value of an argument has a single field. -/
theorem Catalog.IsRegular.eq_argument (hcat : catalog.IsRegular) {c : Command}
    (hc : c ∈ catalog.commands.values) (hk : c.kind.makesBlock = true)
    (h : c.opcode = Opcode.argument ∨ c.opcode = Opcode.booleanArgument) :
    ∃ name opcode kind, c = .argument name opcode kind := by
  rcases h with h | h
  · exact ⟨"arg", Opcode.argument, .reporter, hcat.eq_essential hc hk (by decide) (by rw [h]; rfl)⟩
  · exact ⟨"arg_bool", Opcode.booleanArgument, .boolean, hcat.eq_essential hc hk (by decide)
      (by rw [h]; rfl)⟩

theorem Slots.Fill.length_texts {compares : Bool} {site : Listing.Site} :
    ∀ {specs : List InputSpec} {slots : Slots α}, slots.Fill catalog target compares specs [] →
      (slots.texts catalog symbols site specs).length = specs.length
  | [], .nil, _ => by simp [Slots.texts]
  | [], .cons .., _ => by simp [Slots.texts]
  | _ :: _, .cons .., ⟨_, _, hrest⟩ => by
    rw [Slots.texts, List.length_cons, hrest.length_texts, List.length_cons]
  | _ :: _, .nil, h => h.elim

namespace Reading

/-- The reader reads what is written for a value that does not compare. -/
def Recites (catalog : Catalog) (symbols : Symbols) (read : Reader) (v : Chain α) : Prop :=
  v ≠ .nil → v.compares = false →
    ∃ t, read (v.speech catalog symbols) = .ok t ∧ v.Recalls symbols t

/-- The reader reads what is written for a condition. -/
def RecitesCondition (catalog : Catalog) (symbols : Symbols) (read : Reader) (v : Chain α) : Prop :=
  v ≠ .nil → ∃ t, condition read (v.speech catalog symbols) = .ok t ∧ v.Recalls symbols t

variable {read : Reader}

/-! ### Conditions -/

theorem isOperandExpression_format (text : String) :
    isOperandExpression (Token.format text) = false := by
  obtain ⟨c, rest, hcs, hc, -⟩ := (IsOperand.token text).head
  have hmark : "@".toList = ['@'] := rfl
  simp [isOperandExpression, Token.isShaped_format, Text.startsWith, hcs, hmark, List.isPrefixOf,
    Ne.symm hc]

/-- A token is read as its text, or as the number that the text is. -/
theorem resembles_operandLiteral (a : Literal) :
    a.Resembles (operandLiteral (Token.format a.text)) := by
  unfold operandLiteral
  split
  · next n hn => exact .inr ⟨n, Token.parse?_of_format hn, rfl⟩
  · exact .inl (by rw [Token.unquote_format]; rfl)

theorem operandText_nil (literal : Literal) :
    Literal.operandText (some literal) ((Chain.nil : Chain α).speech catalog symbols) =
      Token.format literal.text := by
  simp [Literal.operandText, Chain.speech]

/-- A slot of a comparison that does not hold another one is written as a token or a call. -/
theorem isOperand_operandText (hcat : catalog.IsRegular) {constant : Option Literal} {v : Chain α}
    (hvalue : v.IsValue catalog target) (hcompares : v.compares = false)
    (hconstant : v = .nil → constant.isSome) :
    IsOperand (Literal.operandText constant (v.speech catalog symbols)) := by
  by_cases hnil : v = .nil
  · subst hnil
    obtain ⟨literal, rfl⟩ := Option.isSome_iff_exists.1 (hconstant rfl)
    rw [operandText_nil]
    exact .token _
  · obtain ⟨name, args, hcall, htext⟩ := hvalue.exists_call symbols hcat hnil hcompares
    rw [htext, Literal.operandText_of_ne hcall.ne_empty]
    exact .call hcall

/-- An operand of a comparison reads back. -/
theorem operand_recalls (hcat : catalog.IsRegular) {constant : Option Literal} {v : Chain α}
    (hvalue : v.IsValue catalog target) (hcompares : v.compares = false)
    (hconstant : v = .nil → constant.isSome) (hread : Recites catalog symbols read v) :
    ∃ content, operand read (Literal.operandText constant (v.speech catalog symbols)) =
      .ok content ∧ content.shadow = .nil ∧ v.Recalls symbols content.value ∧
      (v = .nil → ∃ a ∈ constant, ∃ b ∈ content.constant, a.Resembles b) := by
  by_cases hnil : v = .nil
  · subst hnil
    obtain ⟨literal, rfl⟩ := Option.isSome_iff_exists.1 (hconstant rfl)
    rw [operandText_nil]
    refine ⟨{ constant := some (operandLiteral (Token.format literal.text)) }, ?_, rfl,
      Chain.recalls_nil, fun _ ↦ ⟨literal, rfl, _, rfl, resembles_operandLiteral literal⟩⟩
    simp [operand, isOperandExpression_format, pure, Except.pure]
  · obtain ⟨name, args, hcall, htext⟩ := hvalue.exists_call symbols hcat hnil hcompares
    obtain ⟨t, ht, hrecalls⟩ := hread hnil hcompares
    rw [htext] at ht ⊢
    rw [Literal.operandText_of_ne hcall.ne_empty]
    refine ⟨{ value := t }, ?_, rfl, hrecalls, fun h ↦ absurd h hnil⟩
    simp [operand, isOperandExpression, hcall.isShaped, hcall.dropMarker, ht, bind, Except.bind,
      pure, Except.pure]

theorem comparisonOf_relation {opcode : String} {relation : Relation}
    (h : Opcode.relation? opcode = some relation) (left right : String) :
    comparisonOf read ⟨left, relation, right⟩ = comparison read opcode left right := by
  unfold Opcode.relation? at h
  split at h
  · next hgreater =>
    cases h
    rw [beq_iff_eq.1 hgreater]
    rfl
  · split at h
    · next hless =>
      cases h
      rw [beq_iff_eq.1 hless]
      rfl
    · split at h
      · next hequals =>
        cases h
        rw [beq_iff_eq.1 hequals]
        rfl
      · cases h

/-- A comparison of operands that are read back is read back. -/
theorem condition_comparison (hcat : catalog.IsRegular) {tag : α} {node : Node}
    {relation : Relation} {first second : Option Literal} {left right : Chain α}
    (hrelation : Opcode.relation? node.opcode = some relation)
    (hleft : left.IsValue catalog target) (hright : right.IsValue catalog target)
    (hfirst : left = .nil → first.isSome) (hsecond : right = .nil → second.isSome)
    (hleftPlain : left.compares = false) (hrightPlain : right.compares = false)
    (hreadLeft : Recites catalog symbols read left)
    (hreadRight : Recites catalog symbols read right) :
    ∃ t, condition read (Comparison.write (Literal.operandText first (left.speech catalog symbols))
        relation (Literal.operandText second (right.speech catalog symbols))) = .ok t ∧
      (Chain.cons tag node (.cons "OPERAND1" first left .nil
        (.cons "OPERAND2" second right .nil .nil)) .nil).Recalls symbols t := by
  have hl : IsOperand (Literal.operandText first (left.speech catalog symbols)) :=
    isOperand_operandText hcat hleft hleftPlain hfirst
  have hr : IsOperand (Literal.operandText second (right.speech catalog symbols)) :=
    isOperand_operandText hcat hright hrightPlain hsecond
  obtain ⟨content, hcontent, hshadow, hvalue, hconstant⟩ :=
    operand_recalls hcat hleft hleftPlain hfirst hreadLeft
  obtain ⟨content', hcontent', hshadow', hvalue', hconstant'⟩ :=
    operand_recalls hcat hright hrightPlain hsecond hreadRight
  generalize Literal.operandText first (left.speech catalog symbols) = l at *
  generalize Literal.operandText second (right.speech catalog symbols) = r at *
  refine ⟨block { opcode := node.opcode }
    ((content.slot "OPERAND1").append (content'.slot "OPERAND2")), ?_, ?_⟩
  · have htrim : Text.trim (Comparison.write l relation r) = Comparison.write l relation r := by
      rw [Text.trim, Comparison.trim_write relation hl.isWord hr.isWord, String.ofList_toList]
    simp only [condition, htrim, Comparison.startsWith_write relation hl r,
      Comparison.isShaped_write relation hl hr.isWord, Bool.or_self, Bool.false_eq_true, if_false,
      Comparison.split?_write relation hl.isWord hr.isWord, comparisonOf_relation hrelation]
    simp [comparison, hcontent, hcontent', bind, Except.bind, pure, Except.pure]
  · refine .cons rfl (by simp [Node.asked]) ?_ Chain.recalls_nil
    refine Slots.Recall.cons (fun _ ↦ hconstant) hvalue (hshadow ▸ Chain.recalls_nil) ?_
    exact Slots.Recall.cons (fun _ ↦ hconstant') hvalue' (hshadow' ▸ Chain.recalls_nil)
      (Slots.recall_nil _)

/-- A call that is read back is read back as a condition. -/
theorem condition_call (hcat : catalog.IsRegular) {v : Chain α}
    (hvalue : v.IsValue catalog target) (hcompares : v.compares = false)
    (hread : Recites catalog symbols read v) : RecitesCondition catalog symbols read v := by
  intro hne
  obtain ⟨name, args, hcall, htext⟩ := hvalue.exists_call symbols hcat hne hcompares
  obtain ⟨t, ht, hrecalls⟩ := hread hne hcompares
  rw [htext] at ht ⊢
  refine ⟨t, ?_, hrecalls⟩
  simp [condition, hcall.trim, hcall.isShaped, hcall.dropMarker, ht]

/-! ### Quotes -/

/-- An operand that is not in quotes neither starts nor ends with one. -/
theorem operandText_bare (hcat : catalog.IsRegular) {constant : Option Literal} {v : Chain α}
    (hvalue : v.IsValue catalog target) (hcompares : v.compares = false)
    (hconstant : v = .nil → constant.isSome)
    (hbare : ¬ (v = .nil ∧ ∃ literal ∈ constant, Token.needsQuotes literal.text = true)) :
    (∀ c ∈ (Literal.operandText constant (v.speech catalog symbols)).toList.head?,
      isQuoteMark c = false) ∧
    ∀ c ∈ (Literal.operandText constant (v.speech catalog symbols)).toList.getLast?,
      isQuoteMark c = false := by
  by_cases hnil : v = .nil
  · subst hnil
    obtain ⟨literal, rfl⟩ := Option.isSome_iff_exists.1 (hconstant rfl)
    have hplain : Token.needsQuotes literal.text = false :=
      Bool.eq_false_iff.2 fun h ↦ hbare ⟨rfl, literal, rfl, h⟩
    have htext : Literal.operandText (some literal) ((Chain.nil : Chain α).speech catalog symbols) =
        literal.text := by
      have hform := Token.format_cases literal.text
      simp only [Token.needsQuotes, Bool.not_eq_false'] at hplain
      rw [hplain] at hform
      simpa [Literal.operandText, Chain.speech] using hform
    -- a text that needs no quotes is made of characters of words
    have hmark : ∀ c ∈ literal.text.toList, isQuoteMark c = false := by
      intro c hc
      simp only [Token.needsQuotes, Bool.not_eq_false', Bool.and_eq_true,
        List.all_eq_true] at hplain
      have hord := isOrdinary_of_isWordChar (c := c) (by simp [isWordChar, hplain.2 c hc])
      simp only [isOrdinary, Bool.and_eq_true, Bool.not_eq_true'] at hord
      exact hord.1.1.1
    rw [htext]
    exact ⟨fun c hc ↦ hmark c (List.mem_of_mem_head? hc),
      fun c hc ↦ hmark c (List.mem_of_mem_getLast? hc)⟩
  · obtain ⟨name, args, hcall, htext⟩ := hvalue.exists_call symbols hcat hnil hcompares
    rw [htext, Literal.operandText_of_ne hcall.ne_empty]
    obtain ⟨d, rest, hcs, -, hd⟩ := hcall.head
    refine ⟨fun c hc ↦ ?_, fun c hc ↦ ?_⟩
    · rw [hcs] at hc
      exact Option.some.inj hc ▸ hd
    · have hlast : (Call.write name args).toList.getLast? = some ')' := by
        rw [Call.toList_write, Chars.callText, List.getLast?_concat]
      rw [hlast] at hc
      exact Option.some.inj hc ▸ rfl

/-- The operands of a legible comparison do not compare. -/
theorem operands_legible {node : Node} {relation : Relation} {first second : Option Literal}
    {left right : Chain α} (hrelation : Opcode.relation? node.opcode = some relation)
    (h : (Slots.cons "OPERAND1" first left .nil (.cons "OPERAND2" second right .nil .nil)).IsLegible
      catalog symbols node.opcode) : left.compares = false ∧ right.compares = false := by
  have hcompares : Opcode.isComparison node.opcode = true := by
    rw [← Opcode.relation?_isSome, hrelation]
    rfl
  obtain ⟨⟨hleft, -⟩, -, ⟨hright, -⟩, -⟩ := h
  refine ⟨Bool.eq_false_iff.2 fun h ↦ ?_, Bool.eq_false_iff.2 fun h ↦ ?_⟩
  · cases hcompares.symm.trans (hleft h).outer
  · cases hcompares.symm.trans (hright h).outer

/-- A legible condition that is not in quotes has none to drop. -/
theorem unquote_condition (hcat : catalog.IsRegular) {v : Chain α}
    (hvalue : v.IsValue catalog target) (hne : v ≠ .nil) (hlegible : v.IsLegible catalog symbols)
    (hquotes : v.compares = true → ¬ v.IsQuoted) :
    Token.unquote (v.speech catalog symbols) = v.speech catalog symbols := by
  cases hcompares : v.compares with
  | false =>
    obtain ⟨name, args, hcall, htext⟩ := hvalue.exists_call symbols hcat hne hcompares
    rw [htext, hcall.unquote]
  | true =>
    have hrow : IsRow (v.speech catalog symbols).toList := hvalue.speech_isRow hcat hne
    obtain ⟨tag, node, relation, first, second, left, right, rfl, hrelation, ⟨hleft, hfirst⟩,
      ⟨hright, hsecond⟩, htext⟩ := hvalue.exists_comparison symbols hcat hcompares
    obtain ⟨hl, hr⟩ := operands_legible hrelation hlegible.1
    rw [htext] at hrow ⊢
    refine Token.unquote_of_bare hrow.trim ?_
    have hbare := hquotes hcompares
    simp only [Chain.IsQuoted, Slots.AreQuoted, and_true, not_and_or (a := _ ∧ _)] at hbare
    -- of the two operands one is not in quotes, and the text starts or ends with that one
    refine hbare.imp (fun hbare c hc ↦ ?_) fun hbare c hc ↦ ?_
    · exact (operandText_bare hcat hleft hl hfirst hbare).1 c (Comparison.mem_head?
        (Chain.operand_isRow _ (hleft.speech_isRow hcat)) hc)
    · exact (operandText_bare hcat hright hr hsecond hbare).2 c (Comparison.mem_getLast?
        (Chain.operand_isRow _ (hright.speech_isRow hcat)) hc)

/-! ### Texts of slots -/

/-- The text of an input before its default. -/
def rawText (spec : InputSpec) (args : Arguments) : String :=
  if spec.kind = .boolean then args.readCondition spec.source else args.read spec.source

theorem inputText_of_ne {spec : InputSpec} {args : Arguments} (h : rawText spec args ≠ "") :
    inputText spec args = rawText spec args := by
  unfold rawText at h
  simp [inputText, rawText, h]

/-- A default never makes an expression of a text that is none. -/
theorem isExpression_inputText {spec : InputSpec} (hspec : spec.IsRegular) {args : Arguments}
    (h : spec.isExpression (rawText spec args) = false) :
    spec.isExpression (inputText spec args) = false := by
  by_cases hempty : rawText spec args = ""
  · have htext : inputText spec args = spec.defaultText := by
      unfold rawText at hempty
      simp [inputText, hempty, InputSpec.defaultText]
    rw [htext]
    exact hspec.literal
  · rw [inputText_of_ne hempty]
    exact h

theorem startsWith_mark (text : String) :
    Text.startsWith text "@" = (text.toList.head? == some '@') := by
  have hmark : "@".toList = ['@'] := rfl
  rw [Text.startsWith, hmark]
  cases text.toList with
  | nil => rfl
  | cons c cs => simp [List.isPrefixOf, eq_comm]

theorem isExpression_eq_false (spec : InputSpec) {text : String}
    (htrim : Chars.trim text.toList = text.toList) (h : isOperandExpression text = false) :
    spec.isExpression text = false := by
  rw [isOperandExpression, Bool.or_eq_false_iff, startsWith_mark] at h
  simp [InputSpec.isExpression, htrim, h]

section

variable {spec : InputSpec} (hspec : spec.IsRegular) {name : String} {args : List String}
  (hcall : Call.IsWritable name args)

include hspec hcall

/-- Behind its mark a call is an expression in every slot. -/
theorem isExpression_marked : spec.isExpression (Listing.marked (Call.write name args)) = true := by
  have hrow := hcall.isWord.isRow.marked
  have hhead : (Listing.marked (Call.write name args)).toList.head? = some '@' := by
    simp [Listing.marked]
  have hne : (Listing.marked (Call.write name args)).isEmpty = false := by
    simpa using hrow.ne_nil
  simp [InputSpec.isExpression, hrow.trim, hhead, hne, hspec.allows]

/-- In a slot that is not for a text a call needs no mark. -/
theorem isExpression_call (hkind : spec.kind ≠ .text) :
    spec.isExpression (Call.write name args) = true := by
  simp [InputSpec.isExpression, hcall.isShaped, hcall.ne_empty, hspec.allows, hkind]

end

theorem unquote_marked {name : String} {args : List String} (hcall : Call.IsWritable name args) :
    Token.unquote (Listing.marked (Call.write name args)) =
      Listing.marked (Call.write name args) := by
  refine Token.unquote_of_bare hcall.isWord.isRow.marked.trim (.inl fun c hc ↦ ?_)
  rw [Listing.marked, String.toList_append] at hc
  exact Option.some.inj hc ▸ rfl

/-! ### Slots -/

/-- What is written in a slot that is no condition, and holds a call. -/
theorem spell_call {spec : InputSpec} (hspec : spec.IsRegular) (hkind : spec.kind ≠ .boolean)
    (site : Listing.Site) (constant : Option Literal) {name : String} {args : List String}
    (hcall : Call.IsWritable name args) (choice : String) :
    let text := Token.unquote (spec.spell site constant (Call.write name args) choice)
    spec.isExpression text = true ∧ Call.dropMarker text = Call.write name args := by
  have hne : (Call.write name args).isEmpty = false := by simpa using hcall.ne_empty
  have hmarked : spec.isExpression (Token.unquote (Listing.marked (Call.write name args))) = true ∧
      Call.dropMarker (Token.unquote (Listing.marked (Call.write name args))) =
        Call.write name args := by
    rw [unquote_marked hcall]
    exact ⟨isExpression_marked hspec hcall, Call.dropMarker_marked hcall.isWord⟩
  unfold InputSpec.spell
  simp only [hne, Bool.false_eq_true, if_false]
  split
  · exact hmarked
  · next hboolean => exact absurd hboolean hkind
  · split
    · next hsite =>
      have htext : spec.kind ≠ .text := by
        rintro htext
        rw [htext] at hsite
        simp at hsite
      rw [hcall.unquote]
      exact ⟨isExpression_call hspec hcall htext, hcall.dropMarker⟩
    · exact hmarked

/-- What is written for a constant is no expression, if the constant is none. -/
theorem isExpression_constantText {spec : InputSpec} (hspec : spec.IsRegular)
    (hmenu : spec.kind ≠ .menu) (hboolean : spec.kind ≠ .boolean) {text : String}
    (htext : spec.kind = .text → spec.isExpression text = false) :
    spec.isExpression (Token.unquote (Listing.constantText spec.kind text spec.defaultText)) =
      false := by
  rcases constantText_cases hspec text with hplain | ⟨hkind, htoken⟩
  · -- a plain text is a token of its own
    generalize Listing.constantText spec.kind text spec.defaultText = word at hplain ⊢
    have hform : Token.format word = word := by
      rcases Token.format_cases word with ⟨-, hform⟩ | ⟨hnot, -⟩
      · exact hform
      · have hall : (!word.toList.isEmpty && word.toList.all Chars.isPlain) = true := by
          simpa [List.all_eq_true, ← String.toList_eq_nil_iff] using ⟨hplain.2, hplain.1⟩
        cases hall.symm.trans hnot
    have hunquote : Token.unquote word = word := by
      rw [← hform, Token.unquote_format, hform]
    rw [hunquote]
    exact isExpression_eq_false spec hplain.isWord.trim (hform ▸ isOperandExpression_format word)
  · rw [htoken, Token.unquote_format]
    exact htext (hkind.resolve_right fun h ↦ h.elim hmenu hboolean)

/-- What is written for the constant of a slot is no expression. -/
theorem spell_constant {spec : InputSpec} (hspec : spec.IsRegular) (site : Listing.Site)
    (hmenu : spec.kind ≠ .menu) (hboolean : spec.kind ≠ .boolean) {literal : Literal}
    (hliteral : spec.kind = .text → spec.isExpression literal.text = false) (choice : String) :
    spec.isExpression (Token.unquote (spec.spell site (some literal) "" choice)) = false := by
  have hspell : spec.spell site (some literal) "" choice = Listing.constantText spec.kind
      (Literal.textOr (some literal) spec.defaultText) spec.defaultText := by
    unfold InputSpec.spell
    split
    · next hkind => exact absurd hkind hmenu
    · next hkind => exact absurd hkind hboolean
    · rfl
  rw [hspell]
  refine isExpression_constantText hspec hmenu hboolean fun hkind ↦ ?_
  show spec.isExpression (Text.orElse literal.text spec.defaultText) = false
  unfold Text.orElse
  split
  · exact hspec.literal
  · exact hliteral hkind

/-- The choice of a menu is empty or proper. -/
theorem choice_cases (hsymbols : symbols.AreOwn) {tag : α} {opcode : String} {field : FieldText}
    (htext : Text.isProper field.text = true) {slots : Slots α} {rest : Chain α} :
    (Chain.cons tag { opcode, fields := [field] } slots rest).choice symbols = "" ∨
      Text.isProper ((Chain.cons tag { opcode, fields := [field] } slots rest).choice symbols) =
        true := by
  have hdict : Node.fieldDict? symbols { opcode, fields := [field] } =
      (field.field? symbols).map ((∅ : Dict Field).insert field.name) := by
    simp [Node.fieldDict?, Node.putField]
  rw [Chain.choice, hdict]
  cases hfield : field.field? symbols with
  | none => exact .inl rfl
  | some shown =>
    have hhead : ((∅ : Dict Field).insert field.name shown).values.head? = some shown := rfl
    simp only [Option.map_some, Option.bind_some, hhead]
    right
    unfold FieldText.field? at hfield
    split at hfield
    · obtain ⟨symbol, hsymbol, rfl⟩ := Option.map_eq_some_iff.1 hfield
      exact (hsymbols _ _ _ hsymbol).1
    · cases hfield
      exact htext

/-- What is written for the choice of a menu is no expression. -/
theorem spell_choice {spec : InputSpec} (hspec : spec.IsRegular) (hkind : spec.kind = .menu)
    (site : Listing.Site) {choice : String} (hproper : choice = "" ∨ Text.isProper choice = true)
    (hchoice : isOperandExpression choice = false) :
    spec.isExpression (Token.unquote (spec.spell site none "" choice)) = false := by
  have hspell : spec.spell site none "" choice =
      Token.format (Text.orElse choice spec.defaultText) := by
    unfold InputSpec.spell
    rw [hkind]
    rfl
  rw [hspell, Token.unquote_format]
  rcases hproper with rfl | hproper
  · exact hspec.literal
  · obtain ⟨htrim, hne⟩ := Text.isProper_iff.1 hproper
    rw [Text.orElse_of_ne hne]
    exact isExpression_eq_false spec htrim hchoice

/-- The menu of a slot reads back as one, whatever it shows. -/
theorem menuFallback_recalls {spec : InputSpec} (hspec : spec.IsRegular) {opcode : String}
    (hopcode : spec.menuOpcode = some opcode) (raw : String) (tag : α) (field : FieldText) :
    (Chain.cons tag { opcode, fields := [field] } .nil .nil).Recalls symbols
      (menuFallback spec raw).shadow := by
  simp only [menuFallback, hopcode]
  refine .cons rfl (fun r hr ↦ ?_) (Slots.recall_nil _) Chain.recalls_nil
  -- a menu names neither variables nor lists
  simp only [Node.asked, List.flatMap_cons, List.flatMap_nil, List.append_nil, FieldText.asked,
    fieldFor, List.mem_append, List.mem_map, Option.mem_toList] at hr
  rcases hr with ⟨kind, hkind, rfl⟩ | ⟨name, hname, -⟩
  · intro hshared
    cases (hspec.table kind hkind).symm.trans hshared
  · cases hname

/-- The text of a slot that holds a call is an expression, and it is that call. -/
theorem inputText_call (hcat : catalog.IsRegular) {spec : InputSpec} (hspec : spec.IsRegular)
    (hboolean : spec.kind ≠ .boolean) {site : Listing.Site} {constant : Option Literal}
    {value : Chain α} (hvalue : value.IsValue catalog target) (hne : value ≠ .nil)
    (hcompares : value.compares = false) {choice : String} {args : Arguments}
    (hraw : rawText spec args =
      Token.unquote (spec.spell site constant (value.speech catalog symbols) choice)) :
    spec.isExpression (inputText spec args) = true ∧
      Call.dropMarker (inputText spec args) = value.speech catalog symbols := by
  obtain ⟨name, cargs, hcall, hspeech⟩ := hvalue.exists_call symbols hcat hne hcompares
  rw [hspeech] at hraw ⊢
  obtain ⟨hexpression, hdrop⟩ := spell_call hspec hboolean site constant hcall choice
  rw [← hraw] at hexpression hdrop
  have hnonempty : rawText spec args ≠ "" := by
    intro hempty
    rw [hempty] at hexpression
    cases hexpression
  rw [inputText_of_ne hnonempty]
  exact ⟨hexpression, hdrop⟩

section

variable (hcat : catalog.IsRegular) {spec : InputSpec} (hspec : spec.IsRegular)
  {site : Listing.Site} {constant : Option Literal} {value shadow : Chain α}
  (hadmits : spec.Admits false constant value shadow) (hvalue : value.IsValue catalog target)
  (hstands : value.compares = true → constant = none ∧ shadow = .nil)
  (hread : Recites catalog symbols read value) (command : String) {args : Arguments}

include hcat hadmits hvalue

theorem condition_recalls (hboolean : spec.kind = .boolean)
    (hcondition : RecitesCondition catalog symbols read value)
    (hraw : rawText spec args = value.speech catalog symbols) :
    ∃ content, input read command args spec = .ok content ∧
      value.Recalls symbols content.value ∧ shadow.Recalls symbols content.shadow := by
  simp only [InputSpec.Admits, hboolean] at hadmits
  obtain ⟨-, rfl, hne⟩ := hadmits
  obtain ⟨t, ht, hrecalls⟩ := hcondition hne
  refine ⟨{ value := t }, ?_, hrecalls, Chain.recalls_nil⟩
  have hrow : IsRow (value.speech catalog symbols).toList := hvalue.speech_isRow hcat hne
  have htext : inputText spec args = value.speech catalog symbols := by
    rw [← hraw] at hrow ⊢
    exact inputText_of_ne fun hempty ↦ hrow.ne_nil (by rw [hempty]; rfl)
  simp only [input, hboolean, htext, ht]
  rfl

include hspec hstands hread

theorem menuSlot_recalls (hsymbols : symbols.AreOwn) (hmenu : spec.kind = .menu)
    (hchoice : isOperandExpression (shadow.choice symbols) = false)
    (hraw : rawText spec args = Token.unquote
      (spec.spell site constant (value.speech catalog symbols) (shadow.choice symbols))) :
    ∃ content, menuSlot read spec (inputText spec args) = .ok content ∧
      value.Recalls symbols content.value ∧ shadow.Recalls symbols content.shadow := by
  have hboolean : spec.kind ≠ .boolean := by rw [hmenu]; nofun
  have hcompares := hadmits.compares_eq_false hboolean hstands
  simp only [InputSpec.Admits, hmenu] at hadmits
  obtain ⟨rfl, tag, opcode, field, hopcode, rfl, -, htext⟩ := hadmits
  rw [menuSlot]
  by_cases hnil : value = .nil
  · subst hnil
    have hexpression := spell_choice hspec hmenu site (choice_cases hsymbols htext) hchoice
    rw [Chain.speech] at hraw
    rw [← hraw] at hexpression
    rw [isExpression_inputText hspec hexpression]
    exact ⟨_, rfl, by simpa [menuFallback, hopcode] using Chain.recalls_nil,
      menuFallback_recalls hspec hopcode _ tag field⟩
  · obtain ⟨t, ht, hrecalls⟩ := hread hnil hcompares
    obtain ⟨hexpression, hdrop⟩ := inputText_call hcat hspec hboolean hvalue hnil hcompares hraw
    rw [hexpression, if_pos rfl, hdrop, ht]
    exact ⟨_, rfl, hrecalls, menuFallback_recalls hspec hopcode _ tag field⟩

theorem literalSlot_recalls (hmenu : spec.kind ≠ .menu) (hboolean : spec.kind ≠ .boolean)
    (hraw : rawText spec args = Token.unquote
      (spec.spell site constant (value.speech catalog symbols) (shadow.choice symbols))) :
    ∃ content, literalSlot read command spec (inputText spec args) = .ok content ∧
      value.Recalls symbols content.value ∧ shadow.Recalls symbols content.shadow := by
  have hcompares := hadmits.compares_eq_false hboolean hstands
  obtain ⟨rfl, -, hliteral⟩ := hadmits.literal hmenu hboolean
  rw [literalSlot]
  by_cases hnil : value = .nil
  · subst hnil
    obtain ⟨literal, rfl, htext⟩ := hliteral rfl
    have hexpression := spell_constant hspec site hmenu hboolean (fun h ↦ htext h rfl)
      ((Chain.nil : Chain α).choice symbols)
    rw [Chain.speech] at hraw
    rw [← hraw] at hexpression
    rw [isExpression_inputText hspec hexpression]
    exact ⟨_, rfl, Chain.recalls_nil, Chain.recalls_nil⟩
  · obtain ⟨t, ht, hrecalls⟩ := hread hnil hcompares
    obtain ⟨hexpression, hdrop⟩ := inputText_call hcat hspec hboolean hvalue hnil hcompares hraw
    rw [hexpression, if_pos rfl, hdrop, ht]
    exact ⟨_, rfl, hrecalls, Chain.recalls_nil⟩

/-- What is written for a slot reads back as it. -/
theorem input_recalls (hsymbols : symbols.AreOwn)
    (hchoice : isOperandExpression (shadow.choice symbols) = false)
    (hcondition : RecitesCondition catalog symbols read value)
    (hraw : rawText spec args = if spec.kind = .boolean then value.speech catalog symbols
      else Token.unquote (spec.spell site constant (value.speech catalog symbols)
        (shadow.choice symbols))) :
    ∃ content, input read command args spec = .ok content ∧
      value.Recalls symbols content.value ∧ shadow.Recalls symbols content.shadow := by
  by_cases hboolean : spec.kind = .boolean
  · rw [if_pos hboolean] at hraw
    exact condition_recalls hcat hadmits hvalue command hboolean hcondition hraw
  rw [if_neg hboolean] at hraw
  by_cases hmenu : spec.kind = .menu
  · simp only [input, hmenu]
    exact menuSlot_recalls hcat hspec hadmits hvalue hstands hread hsymbols hmenu hchoice hraw
  · have hinput : input read command args spec =
        literalSlot read command spec (inputText spec args) := by
      unfold input
      split
      · next hkind => exact absurd hkind hmenu
      · next hkind => exact absurd hkind hboolean
      · rfl
    rw [hinput]
    exact literalSlot_recalls hcat hspec hadmits hvalue hstands hread command hmenu hboolean hraw

end

/-- The reader reads what is written for all values in these slots. -/
def RecitesAll (catalog : Catalog) (symbols : Symbols) (read : Reader) (slots : Slots α) : Prop :=
  slots.EachValue fun v ↦
    Recites catalog symbols read v ∧ RecitesCondition catalog symbols read v

/-- What is written for the inputs of a block reads back as them. -/
theorem inputs_recall (hcat : catalog.IsRegular) (hsymbols : symbols.AreOwn) {site : Listing.Site}
    {opcode : String} (command : String) {args : Arguments} :
    ∀ {specs : List InputSpec} {slots : Slots α}, (∀ spec ∈ specs, spec.IsRegular) →
      slots.Fill catalog target false specs [] → slots.IsLegible catalog symbols opcode →
      RecitesAll catalog symbols read slots →
      List.Forall₂ (fun spec text ↦ rawText spec args =
        if spec.kind = .boolean then text else Token.unquote text) specs
          (slots.texts catalog symbols site specs) →
      ∃ slots', inputs read command args specs = .ok slots' ∧ slots.Recall symbols false slots'
  | [], .nil, _, _, _, _, _ => ⟨.nil, rfl, Slots.recall_nil _⟩
  | [], .cons .., _, ⟨⟨_, _, _, hmem⟩, _⟩, _, _, _ => absurd hmem List.not_mem_nil
  | spec :: specs, .cons input constant value shadow rest, hspecs,
      ⟨⟨hname, hadmits⟩, hvalue, hfill⟩, ⟨⟨hstands, hchoice⟩, _, hlegible⟩,
      ⟨⟨hread, hcondition⟩, hrecites⟩, htexts => by
    rw [Slots.texts] at htexts
    obtain ⟨hraw, hraws⟩ := List.forall₂_cons.1 htexts
    have hspec := hspecs spec List.mem_cons_self
    have hspell : rawText spec args = if spec.kind = .boolean then value.speech catalog symbols
        else Token.unquote (spec.spell site constant (value.speech catalog symbols)
          (shadow.choice symbols)) := by
      rw [hraw]
      split
      · next hboolean =>
        simp only [InputSpec.Admits, hboolean] at hadmits
        exact InputSpec.spell_condition hcat hboolean hvalue hadmits.2.2 _ _ _
      · rfl
    obtain ⟨content, hcontent, hrecalls, hshadow⟩ := input_recalls hcat hspec hadmits
      hvalue (fun h ↦ ⟨(hstands h).constant, (hstands h).shadow⟩) hread command hsymbols hchoice
      hcondition hspell
    obtain ⟨slots', hslots', hrecall⟩ := inputs_recall hcat hsymbols command
      (fun s hs ↦ hspecs s (List.mem_cons_of_mem _ hs)) hfill hlegible hrecites hraws
    refine ⟨(content.slot spec.name).append slots', ?_, ?_⟩
    · exact bind_eq_ok.2 ⟨content, hcontent, bind_eq_ok.2 ⟨slots', hslots', rfl⟩⟩
    · rw [hname]
      exact .cons (fun h ↦ by cases h) hrecalls hshadow hrecall
  | _ :: _, .nil, _, h, _, _, _ => h.elim

/-! ### Fields -/

theorem find?_of_foldlM_putField {name : String} :
    ∀ {fs : List FieldText} {start dict : Dict Field},
    fs.foldlM (Node.putField symbols) start = some dict → name ∉ fs.map (·.name) →
      dict.find? name = start.find? name
  | [], _, _, h, _ => by
    obtain rfl := Option.some.inj h
    rfl
  | f :: fs, start, dict, h, hname => by
    rw [List.map_cons, List.mem_cons, not_or] at hname
    rw [List.foldlM_cons, Option.bind_eq_bind, Option.bind_eq_some_iff] at h
    obtain ⟨mid, hmid, hrest⟩ := h
    obtain ⟨field, -, rfl⟩ := Option.map_eq_some_iff.1 hmid
    rw [find?_of_foldlM_putField hrest hname.2, Dict.find?_insert_of_ne _ _ hname.1]

/-- A field is found under its name. -/
theorem exists_field {f : FieldText} : ∀ {fs : List FieldText} {start dict : Dict Field},
    fs.foldlM (Node.putField symbols) start = some dict → (fs.map (·.name)).Nodup → f ∈ fs →
      ∃ field, f.field? symbols = some field ∧ dict.find? f.name = some field
  | first :: fs, start, dict, h, hnodup, hf => by
    rw [List.map_cons, List.nodup_cons] at hnodup
    rw [List.foldlM_cons, Option.bind_eq_bind, Option.bind_eq_some_iff] at h
    obtain ⟨mid, hmid, hrest⟩ := h
    rcases List.mem_cons.1 hf with rfl | hf
    · obtain ⟨field, hfield, rfl⟩ := Option.map_eq_some_iff.1 hmid
      refine ⟨field, hfield, ?_⟩
      rw [find?_of_foldlM_putField hrest hnodup.1, Dict.find?_insert_self]
    · exact exists_field hrest hnodup.2 hf

/-- The text names a symbol of this kind. -/
def Names (symbols : Symbols) (kind : SymbolKind) (text : String) : Prop :=
  ∃ name symbol, symbols.lookup? kind name = some symbol ∧ text = symbol.name

/-- A field that is bound to a symbol shows its name. -/
theorem fieldText?_names {c : Command} (hc : c.IsRegular) {node : Node} (hnode : node.Fits c)
    {dict : Dict Field} (hdict : node.fieldDict? symbols = some dict) {spec : FieldSpec}
    (hspec : spec ∈ c.fields) {kind : SymbolKind} (hkind : kind ∈ spec.symbols)
    (fallback : String) :
    Names symbols kind ((node.fieldText? symbols spec.name).getD fallback) := by
  have hnames : node.fields.map (·.name) = c.fields.map (·.name) := by
    have := congrArg (List.map Prod.fst) hnode.fields
    simpa [Function.comp_def] using this
  have hmem : (spec.name, spec.symbols) ∈ node.fields.map fun f ↦ (f.name, f.table) := by
    rw [hnode.fields]
    exact List.mem_map.2 ⟨spec, hspec, rfl⟩
  obtain ⟨f, hf, heq⟩ := List.mem_map.1 hmem
  obtain ⟨hname, htable⟩ := Prod.mk.inj heq
  obtain ⟨field, hfield, hfind⟩ := exists_field hdict (hnames ▸ hc.fieldNames) hf
  rw [FieldText.field?, htable, Option.mem_def.1 hkind] at hfield
  obtain ⟨symbol, hsymbol, rfl⟩ := Option.map_eq_some_iff.1 hfield
  refine ⟨f.text, symbol, hsymbol, ?_⟩
  rw [Node.fieldText?, hdict, ← hname, Option.bind_some, hfind]
  rfl

/-- A field that reads the name of a symbol asks for that name. -/
theorem field_declares (hsymbols : symbols.AreOwn) {spec : FieldSpec} (hspec : spec.IsRegular)
    {args : Arguments} (h : ∀ kind ∈ spec.symbols, Names symbols kind (args.read spec.source)) :
    ∀ r ∈ (field args spec).asked, symbols.Declares r := by
  intro r hr
  simp only [FieldText.asked, field, fieldFor, List.mem_map, Option.mem_toList] at hr
  obtain ⟨kind, hkind, rfl⟩ := hr
  have hsome : spec.symbols.isSome = true := Option.isSome_iff_exists.2 ⟨kind, hkind⟩
  obtain ⟨hoptions, hupper, -⟩ := hspec hsome
  obtain ⟨name, symbol, hsymbol, htext⟩ := h kind hkind
  obtain ⟨hproper, hdeclares⟩ := hsymbols kind name symbol hsymbol
  have hfield : fieldText spec symbol.name = symbol.name := by
    simp [fieldText, (Text.isProper_iff.1 hproper).2, hupper, hoptions]
  rw [if_pos hsome, htext, hfield, Text.nameOr_of_isProper hproper]
  exact hdeclares

/-! ### Arguments -/

/-- Each source of a command takes the argument at its place. -/
theorem read_sources {c : Command} (hc : c.IsRegular) {args : Arguments}
    (hlength : args.texts.length = c.sources.length) :
    List.Forall₂ (fun source text ↦ args.read source = text) c.sources args.texts := by
  rw [List.forall₂_iff_get]
  refine ⟨hlength.symm, fun i hi hi' ↦ ?_⟩
  have hposition : (c.sources.get ⟨i, hi⟩).position? = some i := by
    have hget := congrArg (·[i]?) hc.ordered
    simpa [List.getElem?_eq_getElem hi, hi] using hget
  cases hsource : c.sources.get ⟨i, hi⟩ with
  | unbound =>
    rw [hsource] at hposition
    cases hposition
  | index position =>
    rw [hsource] at hposition
    obtain rfl := Option.some.inj hposition
    simp [Arguments.read, List.getElem?_eq_getElem hi']
  | rest start =>
    rw [hsource] at hposition
    obtain rfl := Option.some.inj hposition
    -- only the last source takes all that is left, and that is one argument
    have hlast : start + 1 = args.texts.length := by
      by_contra hne
      have hdrop : start < c.sources.dropLast.length := by
        rw [List.length_dropLast]
        omega
      have hmem : c.sources.get ⟨start, hi⟩ ∈ c.sources.dropLast := by
        rw [List.get_eq_getElem, ← List.getElem_dropLast hdrop]
        exact List.getElem_mem hdrop
      have hindex := hc.single _ hmem
      rw [hsource] at hindex
      cases hindex
    have htail : args.texts.drop start = [args.texts.get ⟨start, hi'⟩] := by
      rw [List.drop_eq_getElem_cons hi', List.drop_eq_nil_of_le (by omega)]
      rfl
    rw [Arguments.read, htail]
    simp [Text.join]

theorem forall₂_sources {R : ArgumentSource → String → Prop} {c : Command}
    {fieldTexts inputTexts : List String} (hlength : fieldTexts.length = c.fields.length)
    (h : List.Forall₂ R c.sources (fieldTexts ++ inputTexts)) :
    List.Forall₂ (fun spec text ↦ R spec.source text) c.fields fieldTexts ∧
      List.Forall₂ (fun spec text ↦ R spec.source text) c.inputs inputTexts := by
  have hfields := List.forall₂_take_append _ _ _ h
  have hinputs := List.forall₂_drop_append _ _ _ h
  rw [hlength, Command.sources, List.take_left' (by simp)] at hfields
  rw [hlength, Command.sources, List.drop_left' (by simp)] at hinputs
  exact ⟨List.forall₂_map_left_iff.1 hfields, List.forall₂_map_left_iff.1 hinputs⟩

variable (symbols) in
/-- Where the arguments are the written texts of a block, each field and each input takes its
own. -/
theorem read_texts {c : Command} (hc : c.IsRegular) (node : Node) {slots : Slots α}
    (site : Listing.Site) (hfill : slots.Fill catalog target false c.inputs []) (args : Arguments)
    (hargs : args.texts = (node.fieldTexts symbols c.fields ++
      slots.texts catalog symbols site c.inputs).map Token.unquote) :
    List.Forall₂ (fun spec text ↦ args.read spec.source = Token.unquote text) c.fields
        (node.fieldTexts symbols c.fields) ∧
      List.Forall₂ (fun spec text ↦ args.read spec.source = Token.unquote text) c.inputs
        (slots.texts catalog symbols site c.inputs) := by
  have htexts : (slots.texts catalog symbols site c.inputs).length = c.inputs.length :=
    hfill.length_texts
  have hlength : args.texts.length = c.sources.length := by
    simp [hargs, Node.fieldTexts, Command.sources, htexts]
  have hall := read_sources hc hlength
  rw [hargs, List.map_append] at hall
  obtain ⟨hfields, hinputs⟩ := forall₂_sources (by simp [Node.fieldTexts]) hall
  exact ⟨List.forall₂_map_right_iff.1 hfields, List.forall₂_map_right_iff.1 hinputs⟩

/-! ### Calls -/

section

variable {blocks : Dict Block} {node : Node} {slots : Slots BlockId} {s : Setting}

/-- The fields of a block, read from what is written for them, ask for declared names only. -/
theorem fields_declare (hsymbols : symbols.AreOwn) {c : Command} (hc : c.IsRegular)
    (hnode : node.Fits c) {b : Block} (hsaid : b.Says symbols node s) {args : Arguments}
    (hargs : List.Forall₂ (fun spec text ↦ args.read spec.source = Token.unquote text) c.fields
      (node.fieldTexts symbols c.fields)) :
    ∀ r ∈ (c.fields.map (field args)).flatMap FieldText.asked, symbols.Declares r := by
  intro r hr
  obtain ⟨f, hf, hr⟩ := List.mem_flatMap.1 hr
  obtain ⟨spec, hspec, rfl⟩ := List.mem_map.1 hf
  rw [Node.fieldTexts, List.forall₂_map_right_iff, List.forall₂_same] at hargs
  refine field_declares hsymbols (hc.fields spec hspec) (fun kind hkind ↦ ?_) r hr
  rw [hargs spec hspec, Token.unquote_format]
  exact fieldText?_names hc hnode hsaid.fields hspec hkind _

/-- In a call the texts of inputs are read as they are written, those of conditions too. -/
theorem texts_heard (hcat : catalog.IsRegular) {opcode : String}
    (hexpression : (catalog.expressionFor? opcode).isSome = true) {args : List String} :
    ∀ {specs : List InputSpec} {slots : Slots α}, slots.Fill catalog target false specs [] →
      slots.IsLegible catalog symbols opcode →
      List.Forall₂ (fun spec text ↦ (Arguments.ofCall args).read spec.source = Token.unquote text)
        specs (slots.texts catalog symbols .call specs) →
      List.Forall₂ (fun spec text ↦ rawText spec (.ofCall args) =
        if spec.kind = .boolean then text else Token.unquote text) specs
          (slots.texts catalog symbols .call specs)
  | [], .nil, _, _, _ => .nil
  | [], .cons .., ⟨⟨_, _, _, hmem⟩, _⟩, _, _ => absurd hmem List.not_mem_nil
  | spec :: specs, .cons input constant value shadow rest, ⟨⟨_, hadmits⟩, hvalue, hfill⟩,
      ⟨⟨hstands, _⟩, hlegible, hothers⟩, h => by
    rw [Slots.texts] at h ⊢
    obtain ⟨hread, hrest⟩ := List.forall₂_cons.1 h
    refine .cons ?_ (texts_heard hcat hexpression hfill hothers hrest)
    have hraw : rawText spec (.ofCall args) = (Arguments.ofCall args).read spec.source := by
      unfold rawText
      split <;> rfl
    rw [hraw, hread]
    split
    · next hboolean =>
      simp only [InputSpec.Admits, hboolean] at hadmits
      rw [InputSpec.spell_condition hcat hboolean hvalue hadmits.2.2]
      exact unquote_condition hcat hvalue hadmits.2.2 hlegible fun h ↦
        (hstands h).quotes hexpression
    · rfl
  | _ :: _, .nil, h, _, _ => h.elim

/-- A block whose values are read back is read back as the arguments of a call. -/
theorem commandBlock_recalls (hcat : catalog.IsRegular) (hsymbols : symbols.AreOwn) {c : Command}
    (hc : c ∈ catalog.commands.values) (hkind : c.kind.isExpression = true) (hnode : node.Fits c)
    (hfill : slots.Fill catalog target false c.inputs [])
    (hlegible : slots.IsLegible catalog symbols node.opcode) {b : Block}
    (hsaid : b.Says symbols node s) (hread : RecitesAll catalog symbols read slots)
    (hcompares : Opcode.isComparison node.opcode = false) (tag : BlockId) :
    ∃ t, commandBlock read c (.ofCall ((node.callTexts symbols c
        (slots.texts catalog symbols .call c.inputs)).map Token.unquote)) = .ok t ∧
      (Chain.cons tag node slots .nil).Recalls symbols t := by
  have hregular := hcat.regular c hc
  have hblock := CommandKind.makesBlock_of_isExpression hkind
  have hfor : (catalog.expressionFor? node.opcode).isSome = true := by
    rw [hnode.opcode, hcat.expressionFor? hc (hregular.opcode?_eq hblock) hkind]
    rfl
  -- it is enough to read the inputs and to know that the fields are declared
  suffices h : ∀ args, args = Arguments.ofCall ((node.callTexts symbols c
      (slots.texts catalog symbols .call c.inputs)).map Token.unquote) →
      (∃ slots', inputs read c.name args c.inputs = .ok slots' ∧
        slots.Recall symbols false slots') ∧
        ∀ r ∈ (c.fields.map (field args)).flatMap FieldText.asked, symbols.Declares r by
    obtain ⟨⟨slots', hslots', hrecall⟩, hfields⟩ := h _ rfl
    refine ⟨_, bind_eq_ok.2 ⟨slots', hslots', rfl⟩, ?_⟩
    refine .cons hnode.opcode ?_ (hcompares ▸ hrecall) Chain.recalls_nil
    rwa [Node.asked_of_none rfl]
  rintro args rfl
  by_cases hargument : c.opcode = Opcode.argument ∨ c.opcode = Opcode.booleanArgument
  · -- the name of an argument is no symbol
    obtain ⟨name, opcode, kind, rfl⟩ := hcat.eq_argument hc hblock hargument
    obtain rfl := Slots.Fill.eq_nil hfill
    refine ⟨⟨.nil, rfl, Slots.recall_nil _⟩, fun r hr ↦ ?_⟩
    simp [Command.argument, field, fieldFor, FieldText.asked] at hr
  · rw [not_or] at hargument
    rw [Listing.callTexts_of_ne hnode hargument.1 hargument.2]
    obtain ⟨hfields, hinputs⟩ := read_texts symbols hregular node .call hfill (.ofCall _) rfl
    exact ⟨inputs_recall hcat hsymbols c.name hregular.inputs hfill hlegible hread
      (texts_heard hcat hfor hfill hlegible hinputs),
        fields_declare hsymbols hregular hnode hsaid hfields⟩

end

end Reading

/-! ### Expressions -/

theorem Slots.EachValue.and {p q : Chain α → Prop} : ∀ {slots : Slots α}, slots.EachValue p →
    slots.EachValue q → slots.EachValue fun v ↦ p v ∧ q v
  | .nil, _, _ => trivial
  | .cons .., ⟨hp, hps⟩, ⟨hq, hqs⟩ => ⟨⟨hp, hq⟩, hps.and hqs⟩

theorem Slots.IsLegible.each {opcode : String} : ∀ {slots : Slots α},
    slots.IsLegible catalog symbols opcode → slots.EachValue (·.IsLegible catalog symbols)
  | .nil, _ => trivial
  | .cons .., ⟨_, hvalue, hrest⟩ => ⟨hvalue, hrest.each⟩

theorem InputSpec.length_spell (spec : InputSpec) (site : Listing.Site)
    (constant : Option Literal) (speech choice : String) :
    speech.length ≤ (spec.spell site constant speech choice).length := by
  by_cases hempty : speech = ""
  · simp [hempty]
  · have hmarked : speech.length ≤ (Listing.marked speech).length := by
      simp [Listing.marked]
    unfold spell
    simp only [String.isEmpty_iff, hempty, if_false, Text.orElse_of_ne hempty]
    split
    · exact hmarked
    · exact Nat.le_refl _
    · split
      · exact Nat.le_refl _
      · exact hmarked

/-- The text of a value is no longer than the text of its slot. -/
theorem Slots.Fill.length_speech {compares : Bool} {site : Listing.Site} {n : Nat} :
    ∀ {specs : List InputSpec} {slots : Slots α}, slots.Fill catalog target compares specs [] →
      (∀ text ∈ slots.texts catalog symbols site specs, text.length < n) →
        slots.EachValue fun v ↦ (v.speech catalog symbols).length < n
  | [], .nil, _, _ => trivial
  | [], .cons .., ⟨⟨_, _, _, hmem⟩, _⟩, _ => absurd hmem List.not_mem_nil
  | spec :: _, .cons .., ⟨_, _, hrest⟩, h => by
    rw [Slots.texts] at h
    refine ⟨?_, hrest.length_speech fun text htext ↦ h text (List.mem_cons_of_mem _ htext)⟩
    exact (spec.length_spell site _ _ _).trans_lt (h _ List.mem_cons_self)
  | _ :: _, .nil, h, _ => h.elim

/-- Each operand is shorter than the comparison. -/
theorem Comparison.length_operands (first second : Option Literal) (relation : Relation)
    (left right : String) :
    left.length < (write (Literal.operandText first left) relation
      (Literal.operandText second right)).length ∧
    right.length < (write (Literal.operandText first left) relation
      (Literal.operandText second right)).length := by
  have hle : ∀ (constant : Option Literal) (speech : String),
      speech.length ≤ (Literal.operandText constant speech).length := by
    intro constant speech
    by_cases hempty : speech = ""
    · simp [hempty]
    · rw [Literal.operandText_of_ne hempty]
  have hspace : " ".length = 1 := rfl
  have hl := hle first left
  have hr := hle second right
  simp only [write, String.length_append, hspace]
  omega

/-- The texts of inputs are among the arguments of the call. -/
theorem Node.mem_callTexts (hcat : catalog.IsRegular) {c : Command}
    (hc : c ∈ catalog.commands.values) (hkind : c.kind.isExpression = true) {node : Node}
    (hnode : node.Fits c) {site : Listing.Site} {slots : Slots α} {text : String}
    (htext : text ∈ slots.texts catalog symbols site c.inputs) :
    text ∈ node.callTexts symbols c (slots.texts catalog symbols site c.inputs) := by
  by_cases hargument : c.opcode = Opcode.argument ∨ c.opcode = Opcode.booleanArgument
  · obtain ⟨name, opcode, kind, rfl⟩ :=
      hcat.eq_argument hc (CommandKind.makesBlock_of_isExpression hkind) hargument
    simp [Command.argument, Slots.texts] at htext
  · rw [not_or] at hargument
    rw [Listing.callTexts_of_ne hnode hargument.1 hargument.2]
    exact List.mem_append_right _ htext

open Reading in
/-- What is written for a call reads back if the values in it do, one level further down. -/
theorem recites_call (hcat : catalog.IsRegular) (hsymbols : symbols.AreOwn) {line bound : Nat}
    {tag : BlockId} {node : Node} {slots : Slots BlockId} {s : Setting} {b : Block} {c : Command}
    (hc : c ∈ catalog.commands.values) (hkind : c.kind.isExpression = true)
    (havailable : c.isAvailableOn target = true) (hnode : node.Fits c)
    (hfill : slots.Fill catalog target false c.inputs [])
    (hlegible : slots.IsLegible catalog symbols node.opcode) (hsaid : b.Says symbols node s)
    (hcompares : Opcode.isComparison node.opcode = false)
    (htext : (Chain.cons tag node slots .nil).speech catalog symbols = Call.write c.name
      (node.callTexts symbols c (slots.texts catalog symbols .call c.inputs)))
    (hread : RecitesAll catalog symbols (expression catalog target line bound) slots) :
    Recites catalog symbols (expression catalog target line (bound + 1))
      (Chain.cons tag node slots .nil) := by
  intro _ _
  have hregular := hcat.regular c hc
  have hrows : ∀ text ∈ slots.texts catalog symbols .call c.inputs, IsRow text.toList :=
    slots.texts_isRow .call hregular.inputs (hfill.each fun v hv ↦ hv.speech_isRow hcat)
  have hcall : Call.IsWritable c.name
      (node.callTexts symbols c (slots.texts catalog symbols .call c.inputs)) :=
    ⟨hregular.name, node.callTexts_areArguments c hrows⟩
  have hcommand : Build.expressionCommand catalog target c.name = .ok c :=
    Build.expressionCommand_eq_ok.2 ⟨hcat.resolve c hc, hkind, havailable⟩
  obtain ⟨t, ht, hrecalls⟩ := commandBlock_recalls hcat hsymbols hc hkind hnode hfill hlegible hsaid
    hread hcompares tag
  refine ⟨t, ?_, hrecalls⟩
  rw [htext]
  simp only [expression, call, hcall.parse, hcommand]
  exact ht

open Reading in
/-- **Reading what is written for a value gives the value again.** A legible value that does not
compare reads back as an expression, and every legible value reads back as a condition. -/
theorem Chain.IsValue.recalls (hcat : catalog.IsRegular) (hsymbols : symbols.AreOwn)
    {blocks : Dict Block} (line : Nat) {c : Chain BlockId} (h : c.IsValue catalog target)
    (hne : c ≠ .nil) : ∀ (bound : Nat) (s : Setting), c.Held ⟨blocks, symbols⟩ s →
    c.IsLegible catalog symbols → (c.speech catalog symbols).length < bound →
      Recites catalog symbols (expression catalog target line bound) c ∧
        RecitesCondition catalog symbols (expression catalog target line bound) c := by
  refine h.induction (motive := fun c ↦ ∀ (bound : Nat) (s : Setting),
    c.Held ⟨blocks, symbols⟩ s → c.IsLegible catalog symbols →
      (c.speech catalog symbols).length < bound →
      Recites catalog symbols (expression catalog target line bound) c ∧
        RecitesCondition catalog symbols (expression catalog target line bound) c) ?_ hne
  intro tag node slots hvalue hslots bound s hheld hlegible hlength
  obtain ⟨b, -, hsaid, -, -, hslotsHeld, -⟩ := hheld
  obtain ⟨hslotsLegible, -⟩ := hlegible
  have heach := (Listing.eachValue_held hslotsHeld (Nat.le_refl _) hslots).and hslotsLegible.each
  have hspelled : (Chain.cons tag node slots .nil).Spelled catalog symbols target :=
    hvalue.spelled hcat
  cases hspelled with
  | @comparison _ _ relation first second left right hrelation hleft hright hfirst hsecond htext =>
    obtain ⟨hleftPlain, hrightPlain⟩ := operands_legible hrelation hslotsLegible
    rw [htext] at hlength
    obtain ⟨hl, hr⟩ := Comparison.length_operands first second relation
      (left.speech catalog symbols) (right.speech catalog symbols)
    obtain ⟨⟨⟨hreadLeft, ⟨sl, hheldLeft⟩, -⟩, hlegibleLeft⟩,
      ⟨⟨hreadRight, ⟨sr, hheldRight⟩, -⟩, hlegibleRight⟩, -⟩ := heach
    refine ⟨fun _ hplain ↦ ?_, fun _ ↦ ?_⟩
    · have hcompares := Opcode.relation?_isSome node.opcode
      rw [hrelation] at hcompares
      cases hcompares.trans hplain
    · rw [htext]
      refine condition_comparison hcat hrelation hleft hright hfirst hsecond hleftPlain hrightPlain
        (fun hne ↦ (hreadLeft hne bound sl hheldLeft hlegibleLeft (by omega)).1 hne)
        (fun hne ↦ (hreadRight hne bound sr hheldRight hlegibleRight (by omega)).1 hne)
  | @call _ _ _ c hc hkind havailable hnode hfill hrelation htext =>
    have hcompares : Opcode.isComparison node.opcode = false := by
      rw [← Opcode.relation?_isSome, hrelation]
      rfl
    suffices hrecites : Recites catalog symbols (expression catalog target line bound)
        (Chain.cons tag node slots .nil) from
      ⟨hrecites, condition_call hcat hvalue hcompares hrecites⟩
    rw [htext] at hlength
    match bound, hlength with
    | bound + 1, hlength =>
      refine recites_call hcat hsymbols hc hkind havailable hnode hfill hslotsLegible hsaid
        hcompares htext ?_
      -- each value is an argument of the call, and so short enough for one level less
      have hshort : ∀ text ∈ slots.texts catalog symbols .call c.inputs, text.length < bound := by
        intro text htext
        have := Call.length_lt_write c.name (node.mem_callTexts hcat hc hkind hnode htext)
        omega
      refine (heach.and (hfill.length_speech hshort)).mono ?_
      rintro v ⟨⟨⟨hrecites, ⟨sv, hheld⟩, -⟩, hlegible⟩, hshort⟩
      by_cases hnil : v = .nil
      · exact ⟨fun hne ↦ absurd hnil hne, fun hne ↦ absurd hnil hne⟩
      · exact hrecites hnil bound sv hheld hlegible hshort

end BlockScript
