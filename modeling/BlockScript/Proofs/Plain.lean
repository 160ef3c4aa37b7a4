import BlockScript.Proofs.Rereading

/-!
# Statements with constant arguments

A block of any target, made by a listing or not, whose inputs hold no expressions
(`Command.IsPlain`). Its line is the word of its command with one word for each field and input
(`Listing.arguments_plain`). Each of these words is read as a constant again, so the line is read as
a block with the same operation code (`Sheet.line_plain`). Nothing is asked of the texts in the
block except that none of them looks like an expression.
-/

namespace BlockScript

variable {catalog : Catalog} {t : Target} {c : Command} {b : Block} {spec : InputSpec}

/-! ### Words -/

/-- The text that an input shows where no expression covers it. -/
def Target.shownText (t : Target) (b : Block) (spec : InputSpec) : String :=
  let slot := b.inputs.find? spec.name
  let constant := Listing.constant slot spec.defaultText
  if spec.kind = .menu then Text.orElse ((slot.map (Listing.menuChoice t)).getD "") constant
  else constant

/-- An input without an expression as it is written. -/
def Target.inputWord (t : Target) (b : Block) (spec : InputSpec) : String :=
  match spec.kind with
  | .menu => Token.format (t.shownText b spec)
  | .boolean => Text.orElse spec.defaultText "false"
  | kind => Listing.constantText kind (t.shownText b spec) spec.defaultText

/-- The words of the line of a block, after that of its command. -/
def Target.words (t : Target) (c : Command) (b : Block) : List String :=
  c.fields.map (Listing.fieldText b) ++ c.inputs.map (t.inputWord b)

/-- The block is one of the command, and its inputs hold constants that do not look like
expressions. -/
structure Command.IsPlain (t : Target) (c : Command) (b : Block) : Prop where
  opcode : c.opcode? = some b.opcode
  kind : c.kind.isHeader = true
  available : c.isAvailableOn t.kind = true
  constant : ∀ spec ∈ c.inputs, (b.inputs.find? spec.name).bind Slot.connected? = none
  text : ∀ spec ∈ c.inputs, spec.kind = .text ∨ spec.kind = .menu →
    spec.isExpression (t.shownText b spec) = false

instance (t : Target) (c : Command) (b : Block) : Decidable (c.IsPlain t b) :=
  decidable_of_iff (c.opcode? = some b.opcode ∧ c.kind.isHeader = true ∧
    c.isAvailableOn t.kind = true ∧
    (∀ spec ∈ c.inputs, (b.inputs.find? spec.name).bind Slot.connected? = none) ∧
    ∀ spec ∈ c.inputs, spec.kind = .text ∨ spec.kind = .menu →
      spec.isExpression (t.shownText b spec) = false)
    ⟨fun ⟨h₁, h₂, h₃, h₄, h₅⟩ ↦ ⟨h₁, h₂, h₃, h₄, h₅⟩, fun h ↦ ⟨h.1, h.2, h.3, h.4, h.5⟩⟩

theorem Command.IsPlain.opcode_eq (h : c.IsPlain t b) : c.opcode = b.opcode := by
  rw [Command.opcode, h.opcode]
  rfl

theorem Target.inputWord_boolean (hspec : spec.IsRegular) (hkind : spec.kind = .boolean) :
    t.inputWord b spec = "false" := by
  have hdefault : spec.defaultText = "" := by rw [InputSpec.defaultText, hspec.condition hkind]; rfl
  rw [inputWord, hkind, hdefault]
  rfl

theorem Target.inputWord_menu (hkind : spec.kind = .menu) :
    t.inputWord b spec = Token.format (t.shownText b spec) := by
  rw [inputWord, hkind]

theorem Target.inputWord_constant (hmenu : spec.kind ≠ .menu) (hboolean : spec.kind ≠ .boolean) :
    t.inputWord b spec =
      Listing.constantText spec.kind (t.shownText b spec) spec.defaultText := by
  unfold inputWord
  split
  · next hkind => exact absurd hkind hmenu
  · next hkind => exact absurd hkind hboolean
  · rfl

theorem Target.isWord_inputWord (hspec : spec.IsRegular) : IsWord (t.inputWord b spec).toList := by
  by_cases hmenu : spec.kind = .menu
  · rw [inputWord_menu hmenu]
    exact Token.isWord_format _
  by_cases hboolean : spec.kind = .boolean
  · rw [inputWord_boolean hspec hboolean]
    exact isWord_of_plain (List.all_eq_true.1 (by decide)) (by decide)
  · rw [inputWord_constant hmenu hboolean]
    exact isWord_constantText hspec _

theorem Target.isWord_of_mem_words (hc : c.IsRegular) : ∀ w ∈ t.words c b, IsWord w.toList := by
  intro w hw
  rcases List.mem_append.1 hw with hw | hw
  · obtain ⟨spec, -, rfl⟩ := List.mem_map.1 hw
    exact Token.isWord_format _
  · obtain ⟨spec, hspec, rfl⟩ := List.mem_map.1 hw
    exact isWord_inputWord (hc.inputs spec hspec)

/-! ### Writing -/

namespace Listing

variable {speak : Speak}

/-- An input without an expression is written without entering any block. -/
theorem inputText_plain (site : Site)
    (h : (b.inputs.find? spec.name).bind Slot.connected? = none) :
    inputText t speak site b spec = pure (t.inputWord b spec) := by
  have hcomputed : computed speak (b.inputs.find? spec.name) = pure "" := by rw [computed, h]
  by_cases hmenu : spec.kind = .menu
  · rw [Target.inputWord_menu hmenu, Target.shownText, if_pos hmenu]
    unfold inputText
    simp only [hmenu]
    cases hslot : b.inputs.find? spec.name with
    | none => rfl
    | some slot =>
      rw [hslot] at h
      cases slot with
      | literal value => rfl
      | shadow id => rfl
      | block id => cases h
      | covered id fallback => cases h
  · have hshown : t.shownText b spec = constant (b.inputs.find? spec.name) spec.defaultText :=
      if_neg hmenu
    unfold inputText
    dsimp only
    split
    · next hkind => exact absurd hkind hmenu
    · next hkind =>
      rw [hcomputed, Target.inputWord, hkind]
      rfl
    · next hboolean =>
      rw [hcomputed, Target.inputWord_constant hmenu hboolean, hshown]
      rfl

/-- Inputs without expressions are written one after the other. -/
theorem Placed.constants (t : Target) (speak : Speak)
    (site : Site) : ∀ {specs : List InputSpec} {args : List (Nat × String)}
    {texts : List String}, Placed args texts →
    specs.map (·.source.position?) = (List.range' texts.length specs.length).map some →
    (∀ spec ∈ specs, (b.inputs.find? spec.name).bind Slot.connected? = none) →
      ∃ placed, specs.foldlM (fun args spec ↦ match spec.source.position? with
        | some i => return Listing.putAt i (← inputText t speak site b spec) args
        | none => return args) args = (pure placed : Writer _) ∧
        Placed placed (texts ++ specs.map (t.inputWord b))
  | [], args, texts, h, _, _ => ⟨args, rfl, by simpa using h⟩
  | spec :: specs, args, texts, h, hpositions, hconstant => by
    simp only [List.map_cons, List.length_cons, List.range'_succ, List.cons.injEq] at hpositions
    have htail : specs.map (·.source.position?) =
        (List.range' (texts ++ [t.inputWord b spec]).length specs.length).map some := by
      rw [List.length_append, List.length_singleton]
      exact hpositions.2
    obtain ⟨placed, hrest, hplaced⟩ := (h.putAt (t.inputWord b spec)).constants t speak site htail
      fun s hs ↦ hconstant s (List.mem_cons_of_mem _ hs)
    refine ⟨placed, ?_, by simpa using hplaced⟩
    rw [List.foldlM_cons, hpositions.1]
    simp only [inputText_plain site (hconstant spec List.mem_cons_self), pure_bind]
    exact hrest

/-- The arguments of a block without expressions are its words. -/
theorem arguments_plain (hc : c.IsRegular) (site : Site)
    (h : ∀ spec ∈ c.inputs, (b.inputs.find? spec.name).bind Slot.connected? = none) :
    arguments t speak site c b = pure (t.words c b) := by
  obtain ⟨hfields, hinputs⟩ := positions_eq hc
  have hempty : Placed [] [] := ⟨rfl, nofun⟩
  have hplaced := hempty.fields b hfields
  have hlength : ([] ++ c.fields.map (fieldText b)).length = c.fields.length := by simp
  rw [← hlength] at hinputs
  obtain ⟨placed, hwrites, hfinal⟩ := hplaced.constants t speak site hinputs h
  have hargs : arguments t speak site c b = pure (argumentTexts placed) :=
    congrArg (· >>= fun args ↦ pure (argumentTexts args)) hwrites
  -- nothing that is written is empty
  have htexts : argumentTexts placed = t.words c b := by
    rw [argumentTexts, hfinal.content, List.nil_append]
    refine List.filter_eq_self.2 fun w hw ↦ ?_
    simpa using (Target.isWord_of_mem_words hc w hw).ne_nil
  rw [hargs, htexts]

end Listing

/-! ### Reading -/

namespace Reading

variable {read : Reader}

/-- Inputs that can be read one by one can be read. -/
theorem exists_inputs {command : String} {args : Arguments} : ∀ {specs : List InputSpec},
    (∀ spec ∈ specs, ∃ content, input read command args spec = .ok content) →
      ∃ slots, inputs read command args specs = .ok slots ∧ slots.names = specs.map (·.name)
  | [], _ => ⟨.nil, rfl, rfl⟩
  | spec :: specs, h => by
    obtain ⟨content, hcontent⟩ := h spec List.mem_cons_self
    obtain ⟨rest, hrest, hnames⟩ := exists_inputs fun s hs ↦ h s (List.mem_cons_of_mem _ hs)
    refine ⟨(content.slot spec.name).append rest, ?_, ?_⟩
    · rw [inputs, hcontent]
      exact bind_eq_ok.2 ⟨content, rfl, bind_eq_ok.2 ⟨rest, hrest, rfl⟩⟩
    · rw [Slots.names_append, Content.names_slot, hnames]
      rfl

/-- The word of an input without an expression is read as a constant. -/
theorem exists_input (hspec : spec.IsRegular)
    (htext : spec.kind = .text ∨ spec.kind = .menu → spec.isExpression (t.shownText b spec) = false)
    (command : String) {args : Arguments}
    (hraw : rawText spec args = if spec.kind = .boolean then t.inputWord b spec
      else Token.unquote (t.inputWord b spec)) :
    ∃ content, input read command args spec = .ok content := by
  by_cases hboolean : spec.kind = .boolean
  · rw [if_pos hboolean, Target.inputWord_boolean hspec hboolean] at hraw
    have hinput : inputText spec args = "false" := by
      rw [inputText_of_ne (by rw [hraw]; decide), hraw]
    -- without an expression a condition is written as this word, which is read as a constant
    have hcondition : condition read "false" = .ok (truthValue false) := by
      have hshape : (Text.startsWith (Text.trim "false") "@" || Call.isShaped (Text.trim "false")) =
          false := by decide +kernel
      have hsplit : Comparison.split? (Text.trim "false") = none := by decide +kernel
      have hword : (Text.lower (Token.unquote (Text.trim "false")) == "true") = false := by
        decide +kernel
      simp only [condition, hshape, hsplit, hword]
      rfl
    refine ⟨{ value := truthValue false }, ?_⟩
    rw [input, hboolean]
    simp only [hinput, hcondition]
    rfl
  rw [if_neg hboolean] at hraw
  have hplain : spec.isExpression (inputText spec args) = false := by
    refine isExpression_inputText hspec ?_
    rw [hraw]
    by_cases hmenu : spec.kind = .menu
    · rw [Target.inputWord_menu hmenu, Token.unquote_format]
      exact htext (.inr hmenu)
    · rw [Target.inputWord_constant hmenu hboolean]
      exact isExpression_constantText hspec hmenu hboolean fun hkind ↦ htext (.inl hkind)
  unfold input menuSlot literalSlot
  rw [hplain]
  split
  · exact ⟨_, rfl⟩
  · next hkind => exact absurd hkind hboolean
  · exact ⟨_, rfl⟩

/-- The words of a line are those of its inputs. -/
theorem rawText_words (hc : c.IsRegular) (hkind : c.kind.isExpression = false) :
    ∀ spec ∈ c.inputs,
      rawText spec (.ofLine ((t.words c b).map Token.unquote) (t.words c b)) =
        if spec.kind = .boolean then t.inputWord b spec
        else Token.unquote (t.inputWord b spec) := by
  intro spec hspec
  by_cases hboolean : spec.kind = .boolean
  · -- a condition has its line for itself
    obtain ⟨hfields, hlength⟩ := hc.condition hkind ⟨spec, hspec, hboolean⟩
    obtain ⟨other, hinputs⟩ := List.length_eq_one_iff.1 hlength
    obtain rfl : spec = other := by
      rw [hinputs] at hspec
      exact List.mem_singleton.1 hspec
    have hposition : spec.source.position? = some 0 := by
      have hordered := hc.ordered
      simp only [Command.sources, hfields, hinputs] at hordered
      exact (List.cons.inj hordered).1
    simp [rawText, hboolean, Arguments.readCondition, hposition, Target.words, hfields, hinputs,
      Text.join]
  · have hlength : (c.fields.map (Token.unquote ∘ Listing.fieldText b)).length =
        c.fields.length := by simp
    have hall : (Arguments.ofLine ((t.words c b).map Token.unquote) (t.words c b)).texts.length =
        c.sources.length := by
      simp [Arguments.texts, Target.words, Command.sources]
    have hread := read_sources hc hall
    simp only [Arguments.texts, Target.words, List.map_append, List.map_map] at hread
    obtain ⟨-, hinputs⟩ := forall₂_sources hlength hread
    rw [List.forall₂_map_right_iff, List.forall₂_same] at hinputs
    rw [rawText, if_neg hboolean, if_neg hboolean]
    simpa [Target.words] using hinputs spec hspec

end Reading

/-! ### Lines -/

/-- **The line of a block without expressions is read as a block with its operation code.** -/
theorem Sheet.line_plain (hcat : catalog.IsRegular) (hmem : c ∈ catalog.commands.values)
    (h : c.IsPlain t b) (n depth : Nat) {σ : Sheet Unit} (hσ : c.kind = .hat → σ.isNested = false) :
    ∃ node slots, σ.line catalog t.kind
        ⟨n, Listing.indent depth (Listing.commandLine c.header.name (t.words c b))⟩ =
        .ok ((if c.kind = .hat then σ else σ.ensureScript).place c.header n () node slots) ∧
      node.opcode = c.header.opcode ∧ slots.names = c.inputs.map (·.name) := by
  obtain ⟨hblock, hexpr, -⟩ := CommandKind.isHeader_facts h.kind
  obtain ⟨hheader, -, hinputs, hkind⟩ := hcat.header_eq hmem hblock
  have hregular := hcat.regular c hmem
  have hwords := Target.isWord_of_mem_words (t := t) (b := b) hregular
  rw [Sheet.line_words (hcat.regular _ hheader).name (hcat.resolve _ hheader)
    (fun w hw ↦ (hwords w hw).isRow) (fun w hw ↦ (hwords w hw).isPiece) rfl,
    Sheet.command_statement (hkind ▸ h.kind) (Command.isAvailableOn_header h.available)
      (hkind ▸ hσ), Sheet.statement, hkind, hinputs]
  obtain ⟨slots, hslots, hnames⟩ := Reading.exists_inputs fun spec hspec ↦
    Reading.exists_input (hregular.inputs spec hspec) (h.text spec hspec) c.header.name
      (Reading.rawText_words hregular hexpr spec hspec)
  refine ⟨statementNode c.header ((t.words c b).map Token.unquote) (t.words c b), slots, ?_, rfl,
    hnames⟩
  rw [hslots]
  rfl

end BlockScript
