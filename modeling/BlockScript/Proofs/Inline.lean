import BlockScript.Catalog.Builtin
import BlockScript.Proofs.Lines
import BlockScript.Proofs.Written

/-!
# Texts of one line

A line of source text holds no line feed, and neither does any part of it, nor any text that a slot
shows for a part of it, if the catalog has no line feeds either (`Catalog.IsInline`).
`Text.IsInline` says so of a text. Names of symbols, signatures and operation codes do not end in a
carriage return either (`Text.IsTidy`), so that they can stand at the end of a line.
-/

namespace BlockScript

/-! ### Characters of a text -/

namespace Chars

variable {c : Char} {cs : List Char}

/-- A trimmed text has no other characters. -/
theorem mem_of_mem_trim (h : c ∈ trim cs) : c ∈ cs :=
  (List.dropWhile_sublist _).subset ((trimEnd_isPrefix _).subset h)

/-- A text whose escapes were read has no other characters. -/
theorem mem_of_mem_unescape (h : c ∈ unescape cs) : c ∈ cs := by
  induction cs using unescape.induct with
  | case1 => exact h
  | case2 d => exact h
  | case3 d e rest hescape ih =>
    rw [unescape, if_pos hescape] at h
    rcases List.mem_cons.1 h with rfl | h
    · simp
    · simp [ih h]
  | case4 d e rest hescape ih =>
    rw [unescape, if_neg hescape] at h
    rcases List.mem_cons.1 h with rfl | h
    · simp
    · exact List.mem_cons_of_mem _ (ih h)

/-- A text without its quotes has no other characters. -/
theorem mem_of_mem_unquote (h : c ∈ unquote cs) : c ∈ cs := by
  unfold unquote at h
  dsimp only at h
  split at h
  · have hdrop := (List.dropLast_sublist _).subset (mem_of_mem_unescape h)
    exact mem_of_mem_trim (List.mem_of_mem_drop hdrop)
  · exact mem_of_mem_trim h

end Chars

namespace Scan

variable {c : Char}

/-- The pieces of a text have no other characters. -/
theorem mem_of_mem_pieces {isSeparator : Char → Bool} {s : Scan} {cs piece : List Char}
    (hpiece : piece ∈ pieces isSeparator s cs) (h : c ∈ piece) : c ∈ cs := by
  induction cs generalizing s piece with
  | nil =>
    obtain rfl := List.mem_singleton.1 hpiece
    exact h
  -- each character ends a piece or belongs to the one that follows
  | cons d cs ih =>
    rw [pieces] at hpiece
    split at hpiece
    · rcases List.mem_cons.1 hpiece with rfl | hpiece
      · exact absurd h List.not_mem_nil
      · exact List.mem_cons_of_mem _ (ih hpiece h)
    · cases hrest : pieces isSeparator (s.step d) cs with
      | nil =>
        rw [hrest] at hpiece
        exact absurd hpiece List.not_mem_nil
      | cons first others =>
        rw [hrest, List.modifyHead_cons, List.mem_cons] at hpiece
        have hmem : ∀ piece ∈ first :: others, c ∈ piece → c ∈ d :: cs := fun piece hp hc ↦
          List.mem_cons_of_mem _ (ih (hrest ▸ hp) hc)
        rcases hpiece with rfl | hpiece
        · rcases List.mem_cons.1 h with rfl | h
          · exact List.mem_cons_self
          · exact hmem first List.mem_cons_self h
        · exact hmem piece (List.mem_cons_of_mem _ hpiece) h

/-- The two sides of a found operator have no other characters. -/
theorem mem_of_find? {operators : List (List Char)} {s : Scan}
    {cs before sign after : List Char}
    (hfind : find? operators s cs = some (before, sign, after)) (h : c ∈ before ∨ c ∈ after) :
    c ∈ cs := by
  induction cs generalizing s before with
  | nil => cases hfind
  | cons d cs ih =>
    have hlater : ((find? operators (s.step d) cs).map fun found ↦ (d :: found.1, found.2)) =
        some (before, sign, after) → c ∈ d :: cs := by
      intro hlater
      obtain ⟨⟨before', found⟩, hfound, heq⟩ := Option.map_eq_some_iff.1 hlater
      obtain ⟨rfl, rfl⟩ := Prod.mk.inj heq
      rcases h with h | h
      · rcases List.mem_cons.1 h with rfl | h
        · exact List.mem_cons_self
        · exact List.mem_cons_of_mem _ (ih hfound (.inl h))
      · exact List.mem_cons_of_mem _ (ih hfound (.inr h))
    rw [find?] at hfind
    split at hfind
    · split at hfind
      · obtain ⟨rfl, rfl, rfl⟩ := by simpa using hfind
        exact List.mem_of_mem_drop (h.resolve_left List.not_mem_nil)
      · exact hlater hfind
    · exact hlater hfind

end Scan

/-! ### Texts -/

/-- The text holds no line feed. -/
def Text.IsInline (s : String) : Prop :=
  '\n' ∉ s.toList

instance (s : String) : Decidable (Text.IsInline s) :=
  inferInstanceAs (Decidable (¬_))

/-- The text holds no line feed, and no carriage return at its end. -/
structure Text.IsTidy (s : String) : Prop where
  inline : IsInline s
  last : s.toList.getLast? ≠ some '\r'

instance (s : String) : Decidable (Text.IsTidy s) :=
  decidable_of_iff (Text.IsInline s ∧ s.toList.getLast? ≠ some '\r')
    ⟨fun ⟨h, h'⟩ ↦ ⟨h, h'⟩, fun h ↦ ⟨h.1, h.2⟩⟩

namespace Text

variable {s t : String}

/-- A text of the characters of a text of one line stays on one line. -/
theorem isInline_ofList {cs : List Char} (h : ∀ c ∈ cs, c ∈ s.toList) (hs : IsInline s) :
    IsInline (String.ofList cs) := by
  rw [IsInline, String.toList_ofList]
  exact fun hmem ↦ hs (h _ hmem)

/-- A trimmed text stays on one line. -/
theorem IsInline.trim (h : IsInline s) : IsInline (trim s) :=
  isInline_ofList (fun _ ↦ Chars.mem_of_mem_trim) h

/-- A text without its quotes stays on one line. -/
theorem IsInline.unquote (h : IsInline s) : IsInline (Token.unquote s) :=
  isInline_ofList (fun _ ↦ Chars.mem_of_mem_unquote) h

/-- Two texts of one line together stay on one line. -/
theorem IsInline.append (hs : IsInline s) (ht : IsInline t) : IsInline (s ++ t) := by
  rw [IsInline, String.toList_append, List.mem_append, not_or]
  exact ⟨hs, ht⟩

/-- A text or its default stays on one line when both do. -/
theorem IsInline.orElse (hs : IsInline s) (ht : IsInline t) : IsInline (orElse s t) := by
  unfold Text.orElse
  split
  · exact ht
  · exact hs

/-- A text or its default is tidy when both are. -/
theorem IsTidy.orElse (hs : IsTidy s) (ht : IsTidy t) : IsTidy (orElse s t) := by
  unfold Text.orElse
  split
  · exact ht
  · exact hs

/-- A text that does not end in white space does not end in a carriage return. -/
theorem IsInline.isTidy (h : IsInline s) (hlast : ∀ c ∈ s.toList.getLast?, isWhite c = false) :
    IsTidy s :=
  ⟨h, fun hreturn ↦ absurd (hlast _ hreturn) (by decide)⟩

/-- A trimmed text of one line does not end in a carriage return, which is white space. -/
theorem isTidy_trim (h : IsInline s) : IsTidy (trim s) := by
  refine h.trim.isTidy ?_
  rw [trim, String.toList_ofList]
  exact Chars.getLast?_trim _

/-- A name or its default is tidy. -/
theorem isTidy_nameOr (hs : IsInline s) (ht : IsTidy t) : IsTidy (nameOr s t) := by
  unfold nameOr
  dsimp only
  split
  · exact ht
  · exact isTidy_trim hs

/-- Texts of one line joined by a separator without a line feed stay on one line. -/
theorem isInline_join {separator : String} (hseparator : IsInline separator) {parts : List String}
    (h : ∀ part ∈ parts, IsInline part) : IsInline (join separator parts) := by
  rw [IsInline, join, String.toList_intercalate]
  induction parts with
  | nil => simp
  | cons part parts ih =>
    obtain ⟨hpart, hparts⟩ := List.forall_mem_cons.1 h
    cases parts with
    | nil => simpa [IsInline] using hpart
    | cons next rest =>
      rw [List.map_cons, List.map_cons, List.intercalate_cons_cons, List.mem_append,
        List.mem_append, not_or, not_or]
      exact ⟨⟨hpart, hseparator⟩, ih hparts⟩

/-- Texts of one line joined by spaces stay on one line. -/
theorem isInline_join_space {parts : List String} (h : ∀ part ∈ parts, IsInline part) :
    IsInline (join " " parts) :=
  isInline_join (by decide) h

/-- A text of word characters stays on one line. -/
theorem isInline_of_isWord (h : ∀ c ∈ s.toList, BlockScript.isWordChar c = true) : IsInline s :=
  fun hmem ↦ absurd (h _ hmem) (by decide)

/-- A number is written on one line. -/
theorem isInline_formatNumber (x : Binary64) : IsInline (Number.format x) :=
  isInline_of_isWord fun c hc ↦ by simp [BlockScript.isWordChar, (Number.format_plain x).1 c hc]

/-- The words of a line stay on one line. -/
theorem IsInline.of_mem_splitLine (h : IsInline s) (hmem : t ∈ Token.splitLine s) : IsInline t := by
  obtain ⟨piece, hpiece, rfl⟩ := List.mem_map.1 hmem
  exact isInline_ofList (fun _ ↦ Scan.mem_of_mem_pieces (List.mem_of_mem_filter hpiece)) h

/-- A text without its marker stays on one line. -/
theorem IsInline.dropMarker (h : IsInline s) : IsInline (Call.dropMarker s) := by
  unfold Call.dropMarker
  split
  · next rest htrim =>
    refine isInline_ofList (fun c hc ↦ Chars.mem_of_mem_trim ?_) h
    rw [htrim]
    exact List.mem_cons_of_mem _ hc
  · exact isInline_ofList (fun _ ↦ Chars.mem_of_mem_trim) h

/-- The arguments of a call stay on one line when the call does. -/
theorem IsInline.of_parse (h : IsInline s) {call : Call} (hparse : Call.parse s = .ok call) :
    ∀ arg ∈ call.args, IsInline arg := by
  unfold Call.parse at hparse
  dsimp only at hparse
  split at hparse
  · obtain rfl := Except.ok.inj hparse
    simp
  · next c rest hdrop =>
    split at hparse
    · obtain rfl := Except.ok.inj hparse
      intro arg harg
      obtain ⟨piece, hpiece, rfl⟩ := List.mem_map.1 harg
      refine isInline_ofList (fun d hd ↦ Chars.mem_of_mem_trim ?_) h
      have hrest : d ∈ rest := by
        unfold Chars.splitArguments at hpiece
        split at hpiece
        · exact absurd hpiece List.not_mem_nil
        · exact (List.dropLast_sublist _).subset
            (Scan.mem_of_mem_pieces hpiece (Chars.mem_of_mem_unquote hd))
      refine (List.dropWhile_sublist (· != '(')).subset ?_
      rw [hdrop]
      exact List.mem_cons_of_mem _ hrest
    · cases hparse

/-- Both sides of a comparison stay on one line when the comparison does. -/
theorem IsInline.of_split (h : IsInline s) {c : Comparison}
    (hsplit : Comparison.split? s = some c) :
    IsInline c.left ∧ IsInline c.right := by
  unfold Comparison.split? at hsplit
  simp only [Option.bind_eq_bind, Option.bind_eq_some_iff] at hsplit
  obtain ⟨⟨before, sign, after⟩, hfind, hsplit⟩ := hsplit
  have hpart : ∀ part, (part = before ∨ part = after) →
      IsInline (String.ofList (Chars.trim part)) := by
    rintro part hpart
    refine isInline_ofList (fun d hd ↦ Chars.mem_of_mem_trim (Scan.mem_of_find? hfind ?_)) h
    rcases hpart with rfl | rfl
    · exact .inl (Chars.mem_of_mem_trim hd)
    · exact .inr (Chars.mem_of_mem_trim hd)
  split at hsplit
  · exact absurd hsplit (by simp)
  · obtain ⟨relation, -, hsplit⟩ := Option.bind_eq_some_iff.1 hsplit
    obtain rfl := Option.some.inj hsplit
    exact ⟨hpart before (.inl rfl), hpart after (.inr rfl)⟩

end Text

/-! ### Catalogs -/

/-- The default and the options of a field stay on one line, and no text is put in upper case that
is not one of the options then. -/
structure FieldSpec.IsInline (spec : FieldSpec) : Prop where
  default : ∀ value ∈ spec.default?, Text.IsInline value
  fallback : spec.symbols.isSome = true → Text.IsTidy (spec.default?.getD "item")
  options : ∀ value ∈ spec.options, Text.IsInline value
  uppercase : spec.uppercase = true → spec.options ≠ []

/-- The default and the options of an input stay on one line, as does the operation code of its
menu. -/
structure InputSpec.IsInline (spec : InputSpec) : Prop where
  default : ∀ value ∈ spec.default?, Text.IsInline value
  fallback : spec.symbols.isSome = true → Text.IsTidy (spec.default?.getD "item")
  options : ∀ value ∈ spec.options, Text.IsInline value
  uppercase : spec.uppercase = true → spec.options ≠ []
  menu : ∀ opcode ∈ spec.menuOpcode, Text.IsTidy opcode

/-- All texts of a command stay on one line. -/
structure Command.IsInline (c : Command) : Prop where
  opcode : Text.IsTidy c.opcode
  fields : ∀ spec ∈ c.fields, spec.IsInline
  inputs : ∀ spec ∈ c.inputs, spec.IsInline

/-- All texts of a catalog stay on one line. -/
def Catalog.IsInline (catalog : Catalog) : Prop :=
  ∀ c ∈ catalog.commands.values, c.IsInline

instance (spec : FieldSpec) : Decidable spec.IsInline :=
  decidable_of_iff ((∀ value ∈ spec.default?, Text.IsInline value) ∧
    (spec.symbols.isSome = true → Text.IsTidy (spec.default?.getD "item")) ∧
    (∀ value ∈ spec.options, Text.IsInline value) ∧ (spec.uppercase = true → spec.options ≠ []))
    ⟨fun ⟨h₁, h₂, h₃, h₄⟩ ↦ ⟨h₁, h₂, h₃, h₄⟩, fun h ↦ ⟨h.1, h.2, h.3, h.4⟩⟩

instance (spec : InputSpec) : Decidable spec.IsInline :=
  decidable_of_iff ((∀ value ∈ spec.default?, Text.IsInline value) ∧
    (spec.symbols.isSome = true → Text.IsTidy (spec.default?.getD "item")) ∧
    (∀ value ∈ spec.options, Text.IsInline value) ∧ (spec.uppercase = true → spec.options ≠ []) ∧
    ∀ opcode ∈ spec.menuOpcode, Text.IsTidy opcode)
    ⟨fun ⟨h₁, h₂, h₃, h₄, h₅⟩ ↦ ⟨h₁, h₂, h₃, h₄, h₅⟩, fun h ↦ ⟨h.1, h.2, h.3, h.4, h.5⟩⟩

instance (c : Command) : Decidable c.IsInline :=
  decidable_of_iff (Text.IsTidy c.opcode ∧ (∀ spec ∈ c.fields, spec.IsInline) ∧
    ∀ spec ∈ c.inputs, spec.IsInline)
    ⟨fun ⟨h₁, h₂, h₃⟩ ↦ ⟨h₁, h₂, h₃⟩, fun h ↦ ⟨h.1, h.2, h.3⟩⟩

/-- The built-in catalog has no text of two lines. -/
theorem Catalog.builtin_isInline : builtin.IsInline := by
  intro c hc
  have hall : ∀ c ∈ builtinCommands, c.IsInline := by decide +kernel
  exact hall c (mem_builtinCommands hc)

/-- The default of an input stays on one line. -/
theorem InputSpec.IsInline.defaultText {spec : InputSpec} (h : spec.IsInline) :
    Text.IsInline spec.defaultText := by
  unfold InputSpec.defaultText
  cases hdefault : spec.default? with
  | none => exact (by decide : Text.IsInline "")
  | some value => exact h.default value hdefault

/-! ### Arguments -/

/-- The arguments stay on one line. -/
def Arguments.IsInline : Arguments → Prop
  | ofLine tokens raw => (∀ text ∈ tokens, Text.IsInline text) ∧ ∀ text ∈ raw, Text.IsInline text
  | ofCall args => ∀ text ∈ args, Text.IsInline text

namespace Arguments.IsInline

variable {args : Arguments}

/-- The texts of arguments of one line stay on one line. -/
theorem texts (h : args.IsInline) : ∀ text ∈ args.texts, Text.IsInline text := by
  cases args with
  | ofLine tokens raw => exact h.1
  | ofCall args => exact h

/-- What an input reads from arguments of one line stays on one line. -/
theorem read (h : args.IsInline) (source : ArgumentSource) : Text.IsInline (args.read source) := by
  cases source with
  | index i =>
    show Text.IsInline ((args.texts[i]?).getD "")
    cases htext : args.texts[i]? with
    | none => exact (by decide : Text.IsInline "")
    | some text => exact h.texts text (List.mem_of_getElem? htext)
  | rest start =>
    exact Text.isInline_join_space fun text ht ↦ h.texts text (List.mem_of_mem_drop ht)
  | unbound => exact (by decide : Text.IsInline "")

/-- What a condition reads from arguments of one line stays on one line. -/
theorem readCondition (h : args.IsInline) (source : ArgumentSource) :
    Text.IsInline (args.readCondition source) := by
  cases args with
  | ofLine tokens raw =>
    unfold Arguments.readCondition
    dsimp only
    split
    · exact Text.isInline_join_space fun text ht ↦ h.2 text (List.mem_of_mem_drop ht)
    · exact (by decide : Text.IsInline "")
  | ofCall args => exact h.read source

end Arguments.IsInline

/-! ### Slots -/

/-- The constant of a slot stays on one line. -/
def Slot.IsInline (slot : Slot) : Prop :=
  ∀ value ∈ slot.literal?, Text.IsInline value.text

/-- The constant of a fallback stays on one line. -/
def Fallback.IsInline (fallback : Fallback) : Prop :=
  ∀ value, fallback = .literal value → Text.IsInline value.text

/-- A slot with a constant of one line stays on one line. -/
theorem Slot.isInline_literal {value : Literal} (h : Text.IsInline value.text) :
    (Slot.literal value).IsInline := by
  intro other hother
  rwa [← Option.some.inj hother]

/-- A fallback with a constant of one line stays on one line. -/
theorem Fallback.isInline_literal {value : Literal} (h : Text.IsInline value.text) :
    (Fallback.literal value).IsInline := by
  intro other hother
  rwa [← Fallback.literal.inj hother]

/-- A slot with a block has no constant. -/
theorem Slot.isInline_block (id : BlockId) : (Slot.block id).IsInline := nofun

/-- A slot with a shadow has no constant. -/
theorem Slot.isInline_shadow (id : BlockId) : (Slot.shadow id).IsInline := nofun

/-- A covered slot has the constant of its fallback. -/
theorem Slot.isInline_covered (id : BlockId) {fallback : Fallback} (h : fallback.IsInline) :
    (Slot.covered id fallback).IsInline := by
  cases fallback with
  | literal value =>
    intro other hother
    rw [← Option.some.inj hother]
    exact h value rfl
  | shadow menu => exact nofun

/-! ### Argument texts -/

/-- A text that is checked against options stays on one line. -/
theorem Text.IsInline.checked {raw fallback value : String} {options : List String}
    {uppercase : Bool} (hraw : IsInline raw) (hfallback : IsInline fallback)
    (hoptions : ∀ v ∈ options, IsInline v) (hupper : uppercase = true → options ≠ [])
    (hvalue : value = if uppercase then upper raw else raw) :
    IsInline (if !options.isEmpty && !options.contains value then fallback else value) := by
  split
  · exact hfallback
  · next hchecked =>
    cases uppercase with
    | false => exact hvalue ▸ hraw
    | true =>
      -- an upper-case text is one of the options, since there are any
      refine hoptions _ ?_
      simpa [hupper rfl] using hchecked

/-- The text of a field stays on one line when the argument does. -/
theorem FieldSpec.IsInline.fieldText {spec : FieldSpec} (h : spec.IsInline) {raw : String}
    (hraw : Text.IsInline raw) : Text.IsInline (Reading.fieldText spec raw) := by
  unfold Reading.fieldText
  have hstart : Text.IsInline (if raw.isEmpty then spec.default?.getD raw else raw) := by
    split
    · cases hdefault : spec.default? with
      | none => exact hraw
      | some value => exact h.default value hdefault
    · exact hraw
  have hfallback : Text.IsInline (spec.default?.getD "") := by
    cases hdefault : spec.default? with
    | none => exact (by decide : Text.IsInline "")
    | some value => exact h.default value hdefault
  exact hstart.checked hfallback h.options h.uppercase rfl

namespace InputSpec.IsInline

variable {spec : InputSpec}

/-- The text of an input stays on one line when the arguments do. -/
theorem inputText (h : spec.IsInline) {args : Arguments} (hargs : args.IsInline) :
    Text.IsInline (Reading.inputText spec args) := by
  have hraw : Text.IsInline (if spec.kind = .boolean then args.readCondition spec.source
      else args.read spec.source) := by
    split
    · exact hargs.readCondition _
    · exact hargs.read _
  unfold Reading.inputText
  generalize (if spec.kind = .boolean then args.readCondition spec.source
    else args.read spec.source) = raw at hraw ⊢
  dsimp only
  split
  · cases hdefault : spec.default? with
    | none => exact hraw
    | some value => exact h.default value hdefault
  · exact hraw

/-- The choice of a menu stays on one line when the argument does. -/
theorem menuText (h : spec.IsInline) {raw : String} (hraw : Text.IsInline raw) :
    Text.IsInline (spec.menuText raw).1 := by
  have hchecked := (hraw.trim.orElse h.defaultText).checked h.defaultText h.options h.uppercase rfl
  simpa only [InputSpec.menuText, apply_ite Prod.fst] using hchecked

/-- The text of a constant stays on one line when the argument does. -/
theorem literalText (h : spec.IsInline) (command : String) {raw : String}
    (hraw : Text.IsInline raw) : Text.IsInline (spec.literalText command raw).1 := by
  have hzero : Text.IsInline (Text.orElse spec.defaultText "0") := h.defaultText.orElse (by decide)
  have hred : Text.IsInline (Text.orElse spec.defaultText "#ff0000") :=
    h.defaultText.orElse (by decide)
  -- what is shown is the written text, a number or a default, none of which has a line feed
  unfold InputSpec.literalText
  dsimp only
  split
  · dsimp only
    exact hraw.trim.orElse h.defaultText
  · split
    · exact hraw.trim
    · exact hred
  · split
    · exact Text.isInline_formatNumber _
    · exact hzero
  · split
    · exact Text.isInline_formatNumber _
    · exact hzero
  · split
    · exact Text.isInline_formatNumber _
    · exact hzero
  · exact h.defaultText
  · exact h.defaultText

end InputSpec.IsInline

/-- The constant a slot of any kind makes of a text of one line stays on one line. -/
theorem SlotKind.isInline_literal (kind : SlotKind) {text : String} (h : Text.IsInline text) :
    Text.IsInline (kind.literal text).text := by
  cases kind with
  | integer => exact h.orElse (by decide)
  | angle => exact h.orElse (by decide)
  | color => exact h.orElse (by decide)
  | number => exact h.orElse (by decide)
  | text => exact h
  | menu => exact h
  | boolean => exact h

end BlockScript
