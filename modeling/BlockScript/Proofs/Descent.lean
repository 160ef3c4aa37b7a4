import BlockScript.Proofs.Acceptance

/-!
# The recursion over expressions ends

An expression is made from the expressions in its arguments, so the work on a call goes on with
texts that were cut out of it: trimmed, without quotes and marks, joined again where an input takes
the rest, split at the sign of a comparison, or replaced by a default. The work asks for these texts
and for no others (`Build.callBlock_congr`), and all of them are shorter than the call
(`Expression.length_lt_of_mem_inner`), as long as no default of the catalog is an expression itself.

That the recursion ends is said without the bound that `Build.expression` has for it. The equation
that a maker of expressions has to satisfy has exactly one solution, and every line is read as with
that solution, so the bound is never met (`Build.descends_of_hasPlainDefaults`).
-/

namespace BlockScript

/-- The expressions in the arguments of the call that a text is. -/
def Expression.inner (catalog : Catalog) (target : TargetKind) (text : String) : List String :=
  match Call.parse text with
  | .error _ => []
  | .ok call =>
    match Build.expressionCommand catalog target call.name with
    | .error _ => []
    | .ok c => c.embedded (.ofCall call.args)

/-- The expressions in the arguments of a call are shorter than the call. -/
theorem Expression.length_lt_of_mem_inner {catalog : Catalog} (hcat : catalog.HasPlainDefaults)
    {target : TargetKind} {text inner : String} (h : inner ∈ Expression.inner catalog target text) :
    inner.length < text.length := by
  unfold Expression.inner at h
  split at h
  · cases h
  · next call hparse =>
    split at h
    · cases h
    · next c hcommand =>
      have hc := Catalog.mem_values_of_resolve? (Build.expressionCommand_eq_ok.1 hcommand).1
      have hwritten : (Arguments.ofCall call.args).IsWritten := trivial
      obtain ⟨hle, hpos⟩ := Command.length_embedded hcat hc hwritten h
      -- The parentheses of the call leave less room for its arguments.
      have hargs : (Arguments.ofCall call.args).room ≤ text.length - 1 := Call.extent_args hparse
      omega

namespace Build

variable {f g : Embed}

/-! ### What the work on a call asks for -/

theorem operand_congr (block : BlockId) (input : String) {text : String}
    (h : Reading.isOperandExpression text = true →
      f (Call.dropMarker text) = g (Call.dropMarker text)) :
    operand f block input text = operand g block input text := by
  unfold operand
  by_cases hx : (Call.isShaped text || Text.startsWith text "@") = true
  · rw [if_pos hx, if_pos hx, h hx]
  · rw [if_neg hx, if_neg hx]

theorem comparisonOf_congr {c : Comparison} (owner : BlockId)
    (h : ∀ inner ∈ ([c.left, c.right].filter Reading.isOperandExpression).map Call.dropMarker,
      f inner = g inner) : comparisonOf f c owner = comparisonOf g c owner := by
  have hoperand : ∀ text ∈ [c.left, c.right], ∀ block input,
      operand f block input text = operand g block input text := by
    intro text hmem block input
    refine operand_congr block input fun hx ↦ h _ ?_
    exact List.mem_map_of_mem (List.mem_filter.2 ⟨hmem, hx⟩)
  have hcomparison : ∀ opcode,
      comparison f opcode c.left c.right owner = comparison g opcode c.left c.right owner := by
    intro opcode
    simp only [comparison, hoperand c.left (by simp), hoperand c.right (by simp)]
  simp only [comparisonOf, hcomparison]

theorem condition_congr (line : Nat) (command : String) {raw : String} (owner : BlockId)
    (h : ∀ inner ∈ conditionParts raw, f inner = g inner) :
    condition f line command raw owner = condition g line command raw owner := by
  unfold conditionParts at h
  unfold condition
  generalize Text.trim raw = value at h ⊢
  dsimp only at h ⊢
  cases hx : Text.startsWith value "@" || Call.isShaped value with
  | true =>
    rw [hx, if_pos rfl] at h
    rw [if_pos rfl, if_pos rfl, h _ List.mem_cons_self]
  | false =>
    rw [hx, if_neg Bool.false_ne_true] at h
    rw [if_neg Bool.false_ne_true, if_neg Bool.false_ne_true]
    cases hsplit : Comparison.split? value with
    | none => rfl
    | some c =>
      rw [hsplit] at h
      exact comparisonOf_congr owner h

theorem menuSlot_congr (line : Nat) {spec : InputSpec} (block : BlockId) {raw : String}
    (h : spec.isExpression raw = true → f (Call.dropMarker raw) = g (Call.dropMarker raw)) :
    menuSlot f line spec block raw = menuSlot g line spec block raw := by
  unfold menuSlot
  cases hx : spec.isExpression raw with
  | true => rw [h hx]
  | false => rfl

theorem literalSlot_congr (line : Nat) (command : String) {spec : InputSpec} (block : BlockId)
    {raw : String}
    (h : spec.isExpression raw = true → f (Call.dropMarker raw) = g (Call.dropMarker raw)) :
    literalSlot f line command spec block raw = literalSlot g line command spec block raw := by
  unfold literalSlot
  cases hx : spec.isExpression raw with
  | true => rw [h hx]
  | false => rfl

/-- Work that goes on with a value that every draft gives is the same if it is so for that value. -/
theorem modifyGet_bind_congr {α β : Type} {value : α} {change : Draft → α × Draft}
    (hvalue : ∀ d, (change d).1 = value) {more further : α → Build β}
    (h : more value = further value) :
    (modifyGet change >>= more : Build β) = modifyGet change >>= further := by
  funext d
  show more (change d).1 (change d).2 = further (change d).1 (change d).2
  rw [hvalue d, h]

theorem bindInput_congr (line : Nat) (command : String) {args : Arguments} (block : BlockId)
    {spec : InputSpec} (h : ∀ inner ∈ spec.embedded (Reading.inputText spec args),
      f inner = g inner) :
    bindInput f line command args block spec = bindInput g line command args block spec := by
  unfold bindInput
  -- Reading the argument may leave a warning in the draft, but its text does not depend on the
  -- draft.
  refine modifyGet_bind_congr (fun d ↦ (inputText_eq d line command spec args).1) ?_
  generalize Reading.inputText spec args = raw at h ⊢
  unfold InputSpec.embedded at h
  by_cases hkind : spec.kind = .boolean
  · rw [if_pos hkind] at h
    simp only [hkind, condition_congr line command block h]
  · rw [if_neg hkind] at h
    have hx : spec.isExpression raw = true → f (Call.dropMarker raw) = g (Call.dropMarker raw) := by
      intro hx
      rw [if_pos hx] at h
      exact h _ List.mem_cons_self
    simp only [menuSlot_congr line block hx, literalSlot_congr line command block hx]
    cases hspec : spec.kind with
    | boolean => exact absurd hspec hkind
    | _ => rfl

theorem bindSlots_congr (line : Nat) {command : Command} {args : Arguments} (block : BlockId)
    (h : ∀ inner ∈ command.embedded args, f inner = g inner) :
    bindSlots f line command args block = bindSlots g line command args block := by
  have hinputs : ∀ specs : List InputSpec, specs ⊆ command.inputs →
      specs.forM (bindInput f line command.name args block) =
        specs.forM (bindInput g line command.name args block) := by
    intro specs hspecs
    induction specs with
    | nil => rfl
    | cons spec specs ih =>
      obtain ⟨hspec, hspecs⟩ := List.cons_subset.1 hspecs
      have hinput : bindInput f line command.name args block spec =
          bindInput g line command.name args block spec :=
        bindInput_congr line command.name block fun inner hinner ↦
          h inner (List.mem_flatMap.2 ⟨spec, hspec, hinner⟩)
      rw [List.forM, List.forM, hinput, ih hspecs]
  unfold bindSlots
  rw [hinputs _ (List.Subset.refl _)]

/-- The block of a call is made with the blocks of the expressions in its arguments and of nothing
else. -/
theorem callBlock_congr (catalog : Catalog) (target : TargetKind) (line : Nat) {text : String}
    (h : ∀ inner ∈ Expression.inner catalog target text, f inner = g inner) :
    callBlock f catalog target line text = callBlock g catalog target line text := by
  unfold Expression.inner at h
  unfold callBlock
  cases hparse : Call.parse text with
  | error value => rfl
  | ok call =>
    rw [hparse] at h
    dsimp only at h ⊢
    cases hcommand : expressionCommand catalog target call.name with
    | error fault => rfl
    | ok c =>
      rw [hcommand] at h
      funext owner condition
      simp only [bindSlots_congr line _ h]

/-! ### What the work on a line asks for -/

theorem command_congr (target : TargetKind) (line : Nat) {c : Command} {tokens raw : List String}
    (h : ∀ inner ∈ c.embedded (.ofLine tokens raw), f inner = g inner) :
    command f target line c tokens raw = command g target line c tokens raw := by
  have hstatement : statement f line c tokens raw = statement g line c tokens raw := by
    simp only [statement, bindSlots_congr line _ h]
  simp only [command, hstatement]

/-- Reads one line with a maker of expressions that is given. -/
def lineBy (embed : Embed) (catalog : Catalog) (target : TargetKind) (source : SourceLine) :
    Build Unit := do
  let text := Text.trim source.text
  if text.isEmpty || Text.startsWith text "#" then
    return ()
  match Token.splitLine text with
  | [] => return ()
  | first :: raw =>
    let word := Token.unquote first
    match catalog.resolve? word with
    | none => fail source.line (unknownWord catalog word)
    | some c => command embed target source.line c (raw.map Token.unquote) raw

theorem line_eq_lineBy (catalog : Catalog) (target : TargetKind) (source : SourceLine) :
    line catalog target source =
      lineBy (expression catalog target source.line
        (catalog.nestingBound (Text.trim source.text).length)) catalog target source := by
  cases htokens : Token.splitLine (Text.trim source.text) with
  | nil => simp only [line, lineBy, htokens]
  | cons first raw =>
    cases hc : catalog.resolve? (Token.unquote first) with
    | none => simp only [line, lineBy, htokens, hc]
    | some c => simp only [line, lineBy, htokens, hc]

/-- A line asks for texts that are no longer than the line. -/
theorem lineBy_congr {catalog : Catalog} (hcat : catalog.HasPlainDefaults) (target : TargetKind)
    {source : SourceLine}
    (h : ∀ inner, inner.length ≤ (Text.trim source.text).length → f inner = g inner) :
    lineBy f catalog target source = lineBy g catalog target source := by
  unfold lineBy
  generalize Text.trim source.text = text at h ⊢
  dsimp only
  cases htokens : Token.splitLine text with
  | nil => rfl
  | cons first raw =>
    dsimp only
    cases hc : catalog.resolve? (Token.unquote first) with
    | none => rfl
    | some c =>
      -- The arguments are the tokens after the command, so they fit into the line.
      have hroom : (Arguments.ofLine (raw.map Token.unquote) raw).room ≤ text.length := by
        have hextent := Token.extent_splitLine text
        rw [htokens, extent_cons] at hextent
        show extent raw ≤ text.length
        omega
      have hwritten : (Arguments.ofLine (raw.map Token.unquote) raw).IsWritten := rfl
      have hcommand : command f target source.line c (raw.map Token.unquote) raw =
          command g target source.line c (raw.map Token.unquote) raw := by
        refine command_congr target source.line fun inner hinner ↦ h inner ?_
        have hlength := Command.length_embedded hcat (Catalog.mem_values_of_resolve? hc) hwritten
          hinner
        exact Nat.le_trans hlength.1 hroom
      dsimp only
      rw [hcommand]

/-! ### The recursion without a bound -/

/-- The recursion over the expressions of a target comes to an end. -/
structure Descends (catalog : Catalog) (target : TargetKind) (line : Nat) : Prop where
  /-- The work on a call asks for the expressions in its arguments only: what would be made of any
  other text makes no difference. -/
  asks : ∀ (text : String) (f g : Embed),
    (∀ inner ∈ Expression.inner catalog target text, f inner = g inner) →
      callBlock f catalog target line text = callBlock g catalog target line text
  /-- Each of them is shorter than the call. -/
  shorter : ∀ text, ∀ inner ∈ Expression.inner catalog target text, inner.length < text.length
  /-- So there is exactly one way to make the blocks of expressions by recursion. -/
  solution : ∃! embed : Embed, callBlock embed catalog target line = embed
  /-- And that is how lines are read. -/
  lines : ∀ embed : Embed, callBlock embed catalog target line = embed →
    ∀ source : SourceLine, source.line = line →
      Build.line catalog target source = lineBy embed catalog target source

section

variable {catalog : Catalog} (hcat : catalog.HasPlainDefaults) (target : TargetKind) (line : Nat)

include hcat in
/-- A bound that is larger than the text does not matter. -/
theorem expression_eq_of_lt {bound bound' : Nat} {text : String} (h : text.length < bound)
    (h' : text.length < bound') :
    expression catalog target line bound text = expression catalog target line bound' text := by
  induction bound generalizing bound' text with
  | zero => exact absurd h (Nat.not_lt_zero _)
  | succ bound ih =>
    cases bound' with
    | zero => exact absurd h' (Nat.not_lt_zero _)
    | succ bound' =>
      refine callBlock_congr catalog target line fun inner hinner ↦ ?_
      have hlt := Expression.length_lt_of_mem_inner hcat hinner
      exact ih (by omega) (by omega)

include hcat in
/-- Whatever solves the equation of the recursion does what is done under a bound. -/
theorem eq_expression_of_solves {embed : Embed} (h : callBlock embed catalog target line = embed)
    {bound : Nat} {text : String} (hbound : text.length < bound) :
    embed text = expression catalog target line bound text := by
  induction bound generalizing text with
  | zero => exact absurd hbound (Nat.not_lt_zero _)
  | succ bound ih =>
    -- One level of the bound is spent on the call itself.
    rw [← h]
    refine callBlock_congr catalog target line fun inner hinner ↦ ih ?_
    have hlt := Expression.length_lt_of_mem_inner hcat hinner
    omega

include hcat in
/-- One more level than the text has characters is enough for a solution. -/
theorem solves_expression :
    callBlock (fun text ↦ expression catalog target line (text.length + 1) text)
        catalog target line =
      fun text ↦ expression catalog target line (text.length + 1) text := by
  funext text
  refine callBlock_congr catalog target line fun inner hinner ↦ ?_
  exact expression_eq_of_lt hcat target line (Nat.lt_succ_self _)
    (Expression.length_lt_of_mem_inner hcat hinner)

end

/-- **Expression building ends.** If no default of the catalog is an expression, the expressions
that are made while the arguments of a call are bound are shorter than the call. So the recursion
has one solution, and every line is read as with it, however long it is and however deep its calls
nest. -/
theorem descends_of_hasPlainDefaults {catalog : Catalog} (hcat : catalog.HasPlainDefaults)
    (target : TargetKind) (line : Nat) : Descends catalog target line where
  asks := fun _ _ _ h ↦ callBlock_congr catalog target line h
  shorter := fun _ _ h ↦ Expression.length_lt_of_mem_inner hcat h
  solution := by
    refine ⟨_, solves_expression hcat target line, fun embed h ↦ funext fun text ↦ ?_⟩
    exact eq_expression_of_solves hcat target line h (Nat.lt_succ_self _)
  lines := by
    rintro embed h source rfl
    rw [line_eq_lineBy]
    refine lineBy_congr hcat target fun inner hinner ↦ ?_
    refine (eq_expression_of_solves hcat target source.line h ?_).symm
    rw [Catalog.nestingBound]
    omega

theorem descends_of_hasPlainDefaults_builtin :
    Catalog.builtin.HasPlainDefaults ∧ Descends .builtin .sprite 1 :=
  ⟨Catalog.builtin_hasPlainDefaults,
    descends_of_hasPlainDefaults Catalog.builtin_hasPlainDefaults .sprite 1⟩

end Build

end BlockScript
