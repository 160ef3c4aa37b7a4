import BlockScript.Proofs.Extent
import BlockScript.Proofs.Parse

/-!
# Which lines can be read

A line is *acceptable* on a target if it says nothing, or if its command may stand there and the
expressions in it are sound: each is a call of an expression that the target can use, with sound
expressions in its arguments (`Expression.IsSound`). No other line is ever read, and an acceptable
one is read wherever its command can follow (see `BlockScript.Proofs.Nesting`).

Expressions are read with a bound for their nesting. Since the arguments of a call are shorter than
the call, and no default of the catalog is an expression, a text never nests deeper than it is long,
so the bound does not matter (`Reading.expression_eq_ok_iff`).
-/

namespace BlockScript

/-! ### Expressions in a line -/

/-- The expressions in a condition: the condition itself, or operands of the comparison that it
is. -/
def conditionParts (text : String) : List String :=
  let value := Text.trim text
  if Text.startsWith value "@" || Call.isShaped value then [Call.dropMarker value]
  else match Comparison.split? value with
    | some c => ([c.left, c.right].filter Reading.isOperandExpression).map Call.dropMarker
    | none => []

/-- The expressions that stand in an input for a text. -/
def InputSpec.embedded (spec : InputSpec) (text : String) : List String :=
  if spec.kind = .boolean then conditionParts text
  else if spec.isExpression text then [Call.dropMarker text]
  else []

/-- The expressions that stand in the inputs of a command. -/
def Command.embedded (c : Command) (args : Arguments) : List String :=
  c.inputs.flatMap fun spec ↦ spec.embedded (Reading.inputText spec args)

/-- The text is a call of an expression that the target can use, and so are the expressions in its
arguments. -/
inductive Expression.IsSound (catalog : Catalog) (target : TargetKind) : String → Prop where
  | call {text : String} {call : Call} {c : Command} (hparse : Call.parse text = .ok call)
    (hc : catalog.resolve? call.name = some c) (hkind : c.kind.isExpression = true)
    (havailable : c.isAvailableOn target = true)
    (hinner : ∀ inner ∈ c.embedded (.ofCall call.args), IsSound catalog target inner) :
    IsSound catalog target text

/-- The command may stand in a line of the target, with these tokens after it. -/
def Command.IsUsable (catalog : Catalog) (target : TargetKind) (c : Command) (raw : List String) :
    Prop :=
  match c.kind with
  | .otherwise => True
  | .finish => True
  | .declare => c.name = "make_var" ∨ c.name = "make_list" ∨ c.name = "make_broadcast"
  | kind => kind.isExpression = false ∧ c.isAvailableOn target = true ∧
    ∀ text ∈ c.embedded (.ofLine (raw.map Token.unquote) raw),
      Expression.IsSound catalog target text

/-- The line says nothing, or it gives a command that may stand there. -/
def SourceLine.IsAcceptable (catalog : Catalog) (target : TargetKind) (s : SourceLine) : Prop :=
  s.tokens = [] ∨ ∃ c raw, s.Gives catalog c raw ∧ c.IsUsable catalog target raw

/-- No default of the catalog is an expression. -/
def Catalog.HasPlainDefaults (catalog : Catalog) : Prop :=
  ∀ c ∈ catalog.commands.values, ∀ spec ∈ c.inputs, spec.embedded spec.defaultText = []

theorem Catalog.builtin_hasPlainDefaults : builtin.HasPlainDefaults := by
  have hall : ∀ c ∈ builtinCommands, ∀ spec ∈ c.inputs, spec.embedded spec.defaultText = [] := by
    decide +kernel
  exact fun c hc ↦ hall c (mem_builtinCommands hc)

/-! ### Reading them -/

namespace Reading

/-- An operand is read if the expression in it is, if there is one. -/
theorem operand_eq_ok_iff {read : Reader} {text : String} :
    (∃ content, operand read text = .ok content) ↔
      (isOperandExpression text = true → ∃ t, read (Call.dropMarker text) = .ok t) := by
  unfold operand
  split
  · next h =>
    simp only [bind_eq_ok, h, forall_const]
    exact ⟨fun ⟨_, t, ht, _⟩ ↦ ⟨t, ht⟩, fun ⟨t, ht⟩ ↦ ⟨_, t, ht, rfl⟩⟩
  · next h => exact ⟨fun _ h' ↦ absurd h' h, fun _ ↦ ⟨_, rfl⟩⟩

theorem comparison_eq_ok_iff {read : Reader} {opcode left right : String} :
    (∃ t, comparison read opcode left right = .ok t) ↔
      ∀ text ∈ ([left, right].filter isOperandExpression).map Call.dropMarker,
        ∃ t, read text = .ok t := by
  have hboth : (∃ t, comparison read opcode left right = .ok t) ↔
      (∃ content, operand read left = .ok content) ∧
        ∃ content, operand read right = .ok content := by
    simp only [comparison, bind_eq_ok]
    exact ⟨fun ⟨_, a, ha, b, hb, _⟩ ↦ ⟨⟨a, ha⟩, b, hb⟩,
      fun ⟨⟨a, ha⟩, b, hb⟩ ↦ ⟨_, a, ha, b, hb, rfl⟩⟩
  rw [hboth, operand_eq_ok_iff, operand_eq_ok_iff, List.forall_mem_map]
  simp [List.mem_filter]

theorem comparisonOf_eq_ok_iff {read : Reader} {c : Comparison} :
    (∃ t, comparisonOf read c = .ok t) ↔
      ∀ text ∈ ([c.left, c.right].filter isOperandExpression).map Call.dropMarker,
        ∃ t, read text = .ok t := by
  have hnegated : ∀ opcode, (∃ t, negation <$> comparison read opcode c.left c.right = .ok t) ↔
      ∃ t, comparison read opcode c.left c.right = .ok t := by
    intro opcode
    simp only [map_eq_ok]
    exact ⟨fun ⟨_, t, ht, _⟩ ↦ ⟨t, ht⟩, fun ⟨t, ht⟩ ↦ ⟨_, t, ht, rfl⟩⟩
  unfold comparisonOf
  split <;> simp only [hnegated, comparison_eq_ok_iff]

theorem condition_eq_ok_iff {read : Reader} {text : String} :
    (∃ t, condition read text = .ok t) ↔ ∀ inner ∈ conditionParts text,
      ∃ t, read inner = .ok t := by
  unfold condition conditionParts
  generalize Text.trim text = value
  dsimp only
  cases Text.startsWith value "@" || Call.isShaped value with
  | true =>
    rw [if_pos rfl, if_pos rfl]
    simp only [List.mem_singleton, forall_eq]
  | false =>
    rw [if_neg Bool.false_ne_true, if_neg Bool.false_ne_true]
    cases Comparison.split? value with
    | some c => exact comparisonOf_eq_ok_iff
    | none => exact ⟨fun _ inner h ↦ absurd h List.not_mem_nil, fun _ ↦ ⟨_, rfl⟩⟩

/-- A slot that is covered by an expression or not. -/
theorem covered_eq_ok_iff {read : Reader} {isCovered : Bool} {text : String}
    {f : Tree → Content Unit} {content : Content Unit} :
    (∃ c, (if isCovered then (read text >>= fun t ↦ pure (f t)) else pure content) = .ok c) ↔
      ∀ inner ∈ (if isCovered then [text] else []), ∃ t, read inner = .ok t := by
  cases isCovered with
  | true =>
    simp only [if_true, bind_eq_ok, List.mem_singleton, forall_eq]
    exact ⟨fun ⟨_, t, ht, _⟩ ↦ ⟨t, ht⟩, fun ⟨t, ht⟩ ↦ ⟨_, t, ht, rfl⟩⟩
  | false => exact ⟨fun _ inner h ↦ absurd h List.not_mem_nil, fun _ ↦ ⟨_, rfl⟩⟩

/-- An input is read if the expressions in it are. -/
theorem input_eq_ok_iff {read : Reader} {command : String} {args : Arguments} {spec : InputSpec} :
    (∃ content, input read command args spec = .ok content) ↔
      ∀ text ∈ spec.embedded (inputText spec args), ∃ t, read text = .ok t := by
  unfold input InputSpec.embedded
  generalize inputText spec args = text
  cases spec.kind with
  | boolean =>
    rw [if_pos rfl, ← condition_eq_ok_iff]
    simp only [map_eq_ok]
    exact ⟨fun ⟨_, t, ht, _⟩ ↦ ⟨t, ht⟩, fun ⟨t, ht⟩ ↦ ⟨_, t, ht, rfl⟩⟩
  | menu => exact covered_eq_ok_iff
  | text => exact covered_eq_ok_iff
  | number => exact covered_eq_ok_iff
  | integer => exact covered_eq_ok_iff
  | angle => exact covered_eq_ok_iff
  | color => exact covered_eq_ok_iff

/-- The inputs of a command are read if the expressions in them are. -/
theorem inputs_eq_ok_iff {read : Reader} {command : String} {args : Arguments}
    {specs : List InputSpec} :
    (∃ slots, inputs read command args specs = .ok slots) ↔
      ∀ text ∈ specs.flatMap (fun spec ↦ spec.embedded (inputText spec args)),
        ∃ t, read text = .ok t := by
  induction specs with
  | nil => exact ⟨fun _ text h ↦ absurd h List.not_mem_nil, fun _ ↦ ⟨_, rfl⟩⟩
  | cons spec specs ih =>
    have hboth : (∃ slots, inputs read command args (spec :: specs) = .ok slots) ↔
        (∃ content, input read command args spec = .ok content) ∧
          ∃ slots, inputs read command args specs = .ok slots := by
      simp only [inputs, bind_eq_ok]
      exact ⟨fun ⟨_, a, ha, b, hb, _⟩ ↦ ⟨⟨a, ha⟩, b, hb⟩,
        fun ⟨⟨a, ha⟩, b, hb⟩ ↦ ⟨_, a, ha, b, hb, rfl⟩⟩
    rw [hboth, input_eq_ok_iff, ih, List.flatMap_cons, List.forall_mem_append]

end Reading

/-! ### How deep they nest -/

theorem length_conditionParts {text inner : String} (h : inner ∈ conditionParts text) :
    inner.length ≤ text.length := by
  have htrim := Text.length_trim_le text
  unfold conditionParts at h
  generalize Text.trim text = value at h htrim
  dsimp only at h
  split at h
  · rw [List.mem_singleton.1 h]
    exact Nat.le_trans (Call.length_dropMarker_le value) htrim
  · split at h
    · next c hc =>
      obtain ⟨operand, hoperand, rfl⟩ := List.mem_map.1 h
      have hparts := Comparison.length_split? hc
      have hmarker := Call.length_dropMarker_le operand
      have hmem := List.mem_of_mem_filter hoperand
      rcases List.mem_cons.1 hmem with rfl | hmem
      · omega
      · rw [List.mem_singleton.1 hmem] at hmarker ⊢
        omega
    · cases h

theorem InputSpec.length_embedded {spec : InputSpec} {text inner : String}
    (h : inner ∈ spec.embedded text) : inner.length ≤ text.length := by
  unfold embedded at h
  split at h
  · exact length_conditionParts h
  · split at h
    · rw [List.mem_singleton.1 h]
      exact Call.length_dropMarker_le text
    · cases h

namespace Arguments

theorem length_read_le (args : Arguments) (source : ArgumentSource) :
    (args.read source).length ≤ extent args.texts := by
  cases source with
  | index i =>
    cases hi : args.texts[i]? with
    | none => simp [read, hi]
    | some text =>
      have := length_le_extent (List.mem_of_getElem? hi)
      simp only [read, hi, Option.getD_some]
      omega
  | rest start =>
    exact Nat.le_trans (Text.length_join_le _) (extent_sublist_le (List.drop_sublist start _))
  | unbound => exact Nat.zero_le _

/-- The room that the arguments take in the line or call they are written in. -/
def room : Arguments → Nat
  | ofLine _ raw => extent raw
  | ofCall args => extent args

/-- The arguments are written as they should be: a line shows each token with its quotes. -/
def IsWritten : Arguments → Prop
  | ofLine tokens raw => tokens = raw.map Token.unquote
  | ofCall _ => True

theorem length_inputText_le {args : Arguments} (h : args.IsWritten) (source : ArgumentSource) :
    (args.read source).length ≤ args.room ∧ (args.readCondition source).length ≤ args.room := by
  have hread := args.length_read_le source
  cases args with
  | ofCall args => exact ⟨hread, hread⟩
  | ofLine tokens raw =>
    have htokens : extent tokens ≤ extent raw := by
      rw [show tokens = raw.map Token.unquote from h]
      exact extent_map_le Token.length_unquote_le raw
    refine ⟨Nat.le_trans hread htokens, ?_⟩
    unfold readCondition
    dsimp only
    split
    · exact Nat.le_trans (Text.length_join_le _) (extent_sublist_le (List.drop_sublist _ _))
    · exact Nat.zero_le _

end Arguments

/-- The expressions in the inputs of a command fit into its arguments. -/
theorem Command.length_embedded {catalog : Catalog} (hcat : catalog.HasPlainDefaults) {c : Command}
    (hc : c ∈ catalog.commands.values) {args : Arguments} (hargs : args.IsWritten) {inner : String}
    (h : inner ∈ c.embedded args) : inner.length ≤ args.room ∧ 0 < args.room := by
  obtain ⟨spec, hspec, hinner⟩ := List.mem_flatMap.1 h
  obtain ⟨hread, hcondition⟩ := Arguments.length_inputText_le hargs spec.source
  have htext : ∀ raw : String, raw.length ≤ args.room →
      inner ∈ spec.embedded (if raw.isEmpty then spec.default?.getD raw else raw) →
        inner.length ≤ args.room ∧ 0 < args.room := by
    intro raw hraw hinner
    split at hinner
    · next hempty =>
      -- a default is no expression
      rw [String.isEmpty_iff.1 hempty, ← InputSpec.defaultText, hcat c hc spec hspec] at hinner
      cases hinner
    · next hempty =>
      have hlength := InputSpec.length_embedded hinner
      have hpos : 0 < raw.length := by
        rw [Nat.pos_iff_ne_zero]
        intro hzero
        exact hempty (String.isEmpty_iff.2 (String.length_eq_zero_iff.1 hzero))
      omega
  unfold Reading.inputText at hinner
  dsimp only at hinner
  split at hinner
  · exact htext _ hcondition hinner
  · exact htext _ hread hinner

namespace Reading

/-- An expression is read if it is sound, as long as the bound is larger than the text. -/
theorem expression_eq_ok_iff {catalog : Catalog} (hcat : catalog.HasPlainDefaults)
    {target : TargetKind} {line bound : Nat} {text : String} (h : text.length < bound) :
    (∃ t, expression catalog target line bound text = .ok t) ↔
      Expression.IsSound catalog target text := by
  induction bound generalizing text with
  | zero => exact absurd h (Nat.not_lt_zero _)
  | succ bound ih =>
    -- an expression inside a call is shorter than the call, so the bound is enough for it
    have hinner : ∀ {call : Call} {c : Command}, Call.parse text = .ok call →
        catalog.resolve? call.name = some c →
        ∀ inner ∈ c.embedded (.ofCall call.args),
          ((∃ t, expression catalog target line bound inner = .ok t) ↔
            Expression.IsSound catalog target inner) := by
      intro call c hparse hc inner hmem
      have hwritten : (Arguments.ofCall call.args).IsWritten := trivial
      obtain ⟨hle, hpos⟩ := Command.length_embedded hcat (Catalog.mem_values_of_resolve? hc)
        hwritten hmem
      have hargs := Call.extent_args hparse
      have hroom : (Arguments.ofCall call.args).room = extent call.args := rfl
      exact ih (by omega)
    show (∃ t, Reading.call _ catalog target line text = .ok t) ↔ _
    unfold Reading.call
    constructor
    · intro hok
      split at hok
      · obtain ⟨t, ht⟩ := hok
        cases ht
      · next call hparse =>
        split at hok
        · obtain ⟨t, ht⟩ := hok
          cases ht
        · next c hcommand =>
          obtain ⟨hc, hkind, havailable⟩ := Build.expressionCommand_eq_ok.1 hcommand
          obtain ⟨t, ht⟩ := hok
          obtain ⟨slots, hslots, -⟩ := bind_eq_ok.1 ht
          refine .call hparse hc hkind havailable fun inner hmem ↦ ?_
          exact (hinner hparse hc inner hmem).1 (inputs_eq_ok_iff.1 ⟨slots, hslots⟩ inner hmem)
    · rintro ⟨hparse, hc, hkind, havailable, hsound⟩
      have hcommand := Build.expressionCommand_eq_ok.2 ⟨hc, hkind, havailable⟩
      obtain ⟨slots, hslots⟩ := inputs_eq_ok_iff.2 fun inner hmem ↦
        (hinner hparse hc inner hmem).2 (hsound inner hmem)
      rw [hparse]
      dsimp only
      rw [hcommand]
      exact ⟨_, bind_eq_ok.2 ⟨slots, hslots, rfl⟩⟩

end Reading

end BlockScript
