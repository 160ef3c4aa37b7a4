import BlockScript.Proofs.InlineTarget
import BlockScript.Proofs.Legible

/-!
# The lines of a listing

A line of a listing is empty or a word with some texts after it, indented to some depth
(`Listing.IsLine`). The word is that of a command, or it marks a comment. If the texts of the target
stay on one line, so do the texts of the lines (`Listing.isLineOf_of_mem_targetLines`), whatever the
graph of the target looks like: this is a matter of what is written at each block, not of the walk
that leads there (`Listing.Gives`).
-/

namespace BlockScript

/-! ### Tidy texts -/

/-- Escapes add nothing to a text but backslashes, and quotes stand around it. -/
theorem Chars.notMem_quoted {c : Char} {cs : List Char} (h : c ∉ cs) (hback : c ≠ '\\')
    (hquote : c ≠ '"') : c ∉ '"' :: escape cs ++ ['"'] := by
  intro hmem
  rw [List.mem_append, List.mem_cons, escape, List.mem_flatMap, List.mem_singleton] at hmem
  rcases hmem with (hmem | ⟨d, hd, hmem⟩) | hmem
  · exact hquote hmem
  · split at hmem
    · rcases List.mem_cons.1 hmem with hmem | hmem
      · exact hback hmem
      · exact h (List.mem_singleton.1 hmem ▸ hd)
    · exact h (List.mem_singleton.1 hmem ▸ hd)
  · exact hquote hmem

namespace Text

variable {s t : String}

/-- Two tidy texts together are tidy. -/
theorem IsTidy.append (hs : IsTidy s) (ht : IsTidy t) : IsTidy (s ++ t) := by
  refine ⟨hs.inline.append ht.inline, ?_⟩
  rw [String.toList_append, List.getLast?_append]
  cases hlast : t.toList.getLast? with
  | none => exact hs.last
  | some c =>
    have hne := ht.last
    rw [hlast] at hne
    exact hne

/-- Tidy texts joined by a tidy separator are tidy. -/
theorem isTidy_join {separator : String} (hseparator : IsTidy separator) {parts : List String}
    (h : ∀ part ∈ parts, IsTidy part) : IsTidy (join separator parts) := by
  induction parts with
  | nil => exact ⟨by simp [IsInline, join], by simp [join]⟩
  | cons part parts ih =>
    obtain ⟨hpart, hparts⟩ := List.forall_mem_cons.1 h
    cases parts with
    | nil => simpa [join] using hpart
    | cons next rest =>
      have hjoin : join separator (part :: next :: rest) =
          part ++ separator ++ join separator (next :: rest) := by
        rw [← String.toList_inj]
        simp [join, String.toList_intercalate]
      rw [hjoin]
      exact (hpart.append hseparator).append (ih hparts)

/-- A word of one line is tidy, since a carriage return is no part of a word. -/
theorem isTidy_of_isWord (h : IsInline s) (hword : IsWord s.toList) : IsTidy s :=
  h.isTidy hword.getLast?_not_white

/-- A text written as one token is tidy, in quotes or not. -/
theorem isTidy_format (h : IsInline s) : IsTidy (Token.format s) := by
  refine isTidy_of_isWord ?_ (Token.isWord_format s)
  rw [IsInline, Token.toList_format, Chars.formatToken]
  split
  · exact h
  · exact Chars.notMem_quoted h (by decide) (by decide)

/-- A plain text has neither of the two characters. -/
theorem IsPlain.isTidy (h : IsPlain s) : IsTidy s :=
  isTidy_of_word fun c hc ↦ by simp [BlockScript.isWordChar, h.1 c hc]

end Text

/-- The fallback of a text may be of its kind too. -/
theorem Text.orElse_of {kind : String → Prop} {s t : String} (hs : kind s) (ht : kind t) :
    kind (Text.orElse s t) := by
  unfold Text.orElse
  split
  · exact ht
  · exact hs

/-! ### Texts at the end of a line

Names and constants stand in quotes if need be, but a signature, the operation code of an unknown
block and the identifier of a block that a chain comes back to are written as they are, at the end
of a line. What is asked of them is a matter of how lines are told apart. -/

/-- A kind of texts that may end a line: tidy texts are of this kind, none of them holds a line
feed, and one after another they are of this kind again. -/
structure Text.IsLineKind (kind : String → Prop) : Prop where
  of_isTidy : ∀ {s}, IsTidy s → kind s
  inline : ∀ {s}, kind s → IsInline s
  append : ∀ {s t}, kind s → kind t → kind (s ++ t)

/-- The texts of one line are a kind that may end a line. -/
theorem Text.isLineKind_isInline : IsLineKind IsInline :=
  ⟨IsTidy.inline, id, IsInline.append⟩

/-- The tidy texts are a kind that may end a line. -/
theorem Text.isLineKind_isTidy : IsLineKind IsTidy :=
  ⟨id, IsTidy.inline, IsTidy.append⟩

/-- All texts of a block that a listing can show stay on one line, and those that end a line are of
some kind. -/
structure Block.Shows (kind : String → Prop) (b : Block) : Prop where
  opcode : kind b.opcode
  inputs : ∀ name slot, b.inputs.find? name = some slot → slot.IsInline
  fields : ∀ name field, b.fields.find? name = some field → Text.IsInline field.text
  procedure : ∀ p ∈ b.procedure, kind p.signature

/-- All texts of the blocks of a target that a listing can show stay on one line, and those that end
a line are of some kind. -/
def Target.Shows (kind : String → Prop) (t : Target) : Prop :=
  ∀ id b, t.blocks.find? id = some b → kind id ∧ b.Shows kind

section

variable {kind other : String → Prop}

/-- A block that shows texts of a kind shows texts of every wider kind. -/
theorem Block.Shows.mono (h : ∀ {s}, kind s → other s) {b : Block} (hb : b.Shows kind) :
    b.Shows other where
  opcode := h hb.opcode
  inputs := hb.inputs
  fields := hb.fields
  procedure := fun p hp ↦ h (hb.procedure p hp)

/-- A target that shows texts of a kind shows texts of every wider kind. -/
theorem Target.Shows.mono (h : ∀ {s}, kind s → other s) {t : Target} (ht : t.Shows kind) :
    t.Shows other :=
  fun id b hfind ↦ ⟨h (ht id b hfind).1, (ht id b hfind).2.mono h⟩

end

/-- A target whose texts stay on one line shows tidy texts at the ends of lines. -/
theorem Target.IsInline.shows {t : Target} (h : t.IsInline) : t.Shows Text.IsTidy :=
  fun id b hfind ↦
    ⟨(h.blocks id b hfind).1, { (h.blocks id b hfind).2 with }⟩

/-- The names and the initial values that a target declares stay on one line. Names are trimmed, and
numbers are put in a form of their own first. -/
structure Target.DeclaresInline (t : Target) : Prop where
  vars : ∀ v ∈ t.vars, Text.IsInline (Text.trim v.name) ∧
    (Text.IsInline v.value ∨ Text.isBlank v.value = false ∧ (Number.parse? v.value).isSome = true)
  lists : ∀ s ∈ t.lists, Text.IsInline (Text.trim s.name)
  broadcasts : t.isStage = true → ∀ s ∈ t.broadcasts, Text.IsInline (Text.trim s.name)

/-- A target whose texts stay on one line declares such texts. -/
theorem Target.IsInline.declaresInline {t : Target} (h : t.IsInline) : t.DeclaresInline where
  vars := fun v hv ↦ ⟨(h.vars v hv).1.trim, .inl (h.vars v hv).2⟩
  lists := fun s hs ↦ (h.lists s hs).trim
  broadcasts := fun _ s hs ↦ (h.broadcasts s hs).trim

/-- The name of a command is an identifier, and so it is tidy. -/
theorem Catalog.IsRegular.isTidy_name {catalog : Catalog} (hcat : catalog.IsRegular) {c : Command}
    (hc : c ∈ catalog.commands.values) : Text.IsTidy c.name :=
  Text.isTidy_of_word (Chars.isWordChar_of_identifier (hcat.regular c hc).name)

/-- The command chosen for an operation code is one of the catalog. -/
theorem Catalog.mem_values_of_commandFor? {catalog : Catalog} {opcode : String} {kind : CommandKind}
    {c : Command} (h : catalog.commandFor? opcode kind = some c) : c ∈ catalog.commands.values := by
  unfold commandFor? at h
  rcases Option.or_eq_some_iff.1 h with h | ⟨-, h⟩
  · exact List.mem_of_mem_filter (List.mem_of_find?_eq_some h)
  · exact List.mem_of_mem_filter (List.mem_of_mem_head? h)

/-- The expression chosen for an operation code is one of the catalog. -/
theorem Catalog.mem_values_of_expressionFor? {catalog : Catalog} {opcode : String} {c : Command}
    (h : catalog.expressionFor? opcode = some c) : c ∈ catalog.commands.values := by
  unfold expressionFor? at h
  split at h
  · cases h
  · next command hcommand =>
    split at h
    · obtain rfl := Option.some.inj h
      exact mem_values_of_commandFor? hcommand
    · exact List.mem_of_mem_filter (List.mem_of_find?_eq_some h)

/-- The words that the lines of a listing start with. -/
def Catalog.leads (catalog : Catalog) : List String :=
  ["#", "define", "call", "else", "end", "make_var", "make_list", "make_broadcast"] ++
    catalog.commands.values.map Command.name

/-- A keyword is a name of the catalog or the word that stands in for it. -/
theorem Catalog.keyword_mem_leads {catalog : Catalog} {kind : CommandKind} {fallback : String}
    (h : fallback ∈ catalog.leads) : (catalog.keyword? kind).getD fallback ∈ catalog.leads := by
  unfold keyword?
  cases hfind : catalog.commands.values.find? fun command ↦
    command.kind == kind && !command.hidden with
  | none => exact h
  | some c => exact List.mem_append_right _ (List.mem_map_of_mem (List.mem_of_find?_eq_some hfind))

namespace Listing

variable {α β : Type}

/-! ### What a walk writes -/

/-- Whatever the walk has seen before, the work gives a result of this kind. -/
def Gives (post : α → Prop) (work : Writer α) : Prop :=
  ∀ w : Walk, post (work.run w).1

namespace Gives

variable {post : α → Prop} {post' : β → Prop}

/-- A plain result is of the kind it is of. -/
theorem pure {a : α} (h : post a) : Gives post (Pure.pure a) :=
  fun _ ↦ h

/-- Further work may rely on the kind of the result before it. -/
theorem bind {work : Writer α} {more : α → Writer β} (h : Gives post work)
    (hmore : ∀ a, post a → Gives post' (more a)) : Gives post' (work >>= more) :=
  fun w ↦ hmore _ (h w) _

/-- A remark gives no result to speak of. -/
theorem remark (r : Remark) : Gives (fun _ ↦ True) (Listing.remark r) :=
  fun _ ↦ trivial

/-- What every step keeps is there at the end of a fold. -/
theorem foldlM {step : α → β → Writer α} {items : List β} {a : α}
    (hstep : ∀ item ∈ items, ∀ a, post a → Gives post (step a item)) (ha : post a) :
    Gives post (items.foldlM step a) := by
  induction items generalizing a with
  | nil => exact .pure ha
  | cons item items ih =>
    obtain ⟨hitem, hitems⟩ := List.forall_mem_cons.1 hstep
    rw [List.foldlM_cons]
    exact (hitem a ha).bind fun _ hnext ↦ ih hitems hnext

end Gives

section

variable {catalog : Catalog} {t : Target}

/-- What happens at the door of a block of the target. -/
theorem enter_gives {kind : String → Prop} (ht : t.Shows kind) (id : BlockId) : Gives
    (fun visit ↦ (∀ b, visit = .first b → b.Shows kind) ∧ (visit = .again → kind id))
    (enter t id) := by
  have hget : Gives (fun _ ↦ True) (get : Writer Walk) := fun _ ↦ trivial
  unfold enter
  cases hfind : t.blocks.find? id with
  | none => exact .pure ⟨nofun, nofun⟩
  | some block =>
    obtain ⟨hid, hblock⟩ := ht id block hfind
    refine hget.bind fun w _ ↦ ?_
    split
    · exact (Gives.remark _).bind fun _ _ ↦ .pure ⟨nofun, fun _ ↦ hid⟩
    · have hmodify : Gives (fun _ ↦ True)
          (modify fun w ↦ { w with visited := w.visited ++ [id] } : Writer PUnit) := fun _ ↦ trivial
      refine hmodify.bind fun _ _ ↦ .pure ⟨fun b hb ↦ ?_, nofun⟩
      obtain rfl := Visit.first.inj hb
      exact hblock

/-! ### Slots -/

/-- The expressions of blocks are tidy. -/
def SpeaksTidily (speak : Speak) : Prop :=
  ∀ id, Gives Text.IsTidy (speak id)

/-- The empty text is tidy. -/
theorem isTidy_empty : Text.IsTidy "" := by decide

variable {speak : Speak} (hspeak : SpeaksTidily speak)

include hspeak

/-- The expression of a slot is tidy. -/
theorem computed_gives (slot : Option Slot) : Gives Text.IsTidy (computed speak slot) := by
  unfold computed
  split
  · exact hspeak _
  · exact .pure isTidy_empty

omit hspeak in
/-- The constant of a slot of one line stays on one line. -/
theorem isInline_constant {slot : Option Slot} (hslot : ∀ s ∈ slot, s.IsInline) {fallback : String}
    (hfallback : Text.IsInline fallback) : Text.IsInline (constant slot fallback) := by
  unfold constant
  split
  · next value hvalue =>
    obtain ⟨s, hs, hliteral⟩ := Option.bind_eq_some_iff.1 hvalue
    exact (hslot s hs value hliteral).orElse hfallback
  · exact hfallback

omit hspeak in
/-- The choice shown for a menu stays on one line. -/
theorem isInline_menuChoice (ht : t.Shows Text.IsInline) (slot : Slot) :
    Text.IsInline (menuChoice t slot) := by
  unfold menuChoice
  split
  · next field hfield =>
    obtain ⟨menu, hmenu, hfield⟩ := Option.bind_eq_some_iff.1 hfield
    obtain ⟨id, -, hfind⟩ := Option.bind_eq_some_iff.1 hmenu
    obtain ⟨name, hname⟩ := Dict.exists_find?_of_mem_values (List.mem_of_mem_head? hfield)
    exact (ht id menu hfind).2.fields name field hname
  · exact (by decide : Text.IsInline "")

omit hspeak in
/-- The marker of an expression keeps it tidy. -/
theorem isTidy_marked {expression : String} (h : Text.IsTidy expression) :
    Text.IsTidy (marked expression) :=
  Text.IsTidy.append (by decide : Text.IsTidy "@") h

/-- The text of a menu is tidy, whether chosen, computed or missing. -/
theorem menuText_gives (ht : t.Shows Text.IsInline) {slot : Option Slot}
    (hslot : ∀ s ∈ slot, s.IsInline) {fallback : String} (hfallback : Text.IsInline fallback) :
    Gives Text.IsTidy (menuText t speak slot fallback) := by
  cases slot with
  | none => exact .pure (Text.isTidy_format hfallback)
  | some slot =>
    have hchoice : Text.IsTidy
        (Token.format (Text.orElse (menuChoice t slot) (constant (some slot) fallback))) :=
      Text.isTidy_format ((isInline_menuChoice ht slot).orElse (isInline_constant hslot hfallback))
    have hmarked : ∀ work : Writer String, Gives Text.IsTidy work →
        Gives Text.IsTidy (do
          let expression ← work
          if !expression.isEmpty then
            return marked expression
          return Token.format
            (Text.orElse (menuChoice t slot) (constant (some slot) fallback))) := by
      intro work hwork
      refine hwork.bind fun expression hexpression ↦ ?_
      split
      · exact .pure (isTidy_marked hexpression)
      · exact .pure hchoice
    cases slot with
    | covered id under => exact hmarked _ (hspeak id)
    | literal value => exact hmarked _ (.pure isTidy_empty)
    | shadow id => exact hmarked _ (.pure isTidy_empty)
    | block id => exact hmarked _ (.pure isTidy_empty)

/-- The text of an input is tidy for every way an input can be written. -/
theorem inputText_gives (ht : t.Shows Text.IsInline) (site : Site) {b : Block}
    (hb : b.Shows Text.IsInline) {spec : InputSpec} (hregular : spec.IsRegular)
    (hspec : spec.IsInline) :
    Gives Text.IsTidy (inputText t speak site b spec) := by
  have hslot : ∀ s ∈ b.inputs.find? spec.name, s.IsInline := fun s hs ↦ hb.inputs spec.name s hs
  have hvalue := computed_gives hspeak (b.inputs.find? spec.name)
  unfold inputText
  dsimp only
  split
  · exact menuText_gives hspeak ht hslot hspec.defaultText
  · next hkind =>
    have hdefault : spec.defaultText = "" := by
      rw [InputSpec.defaultText, hregular.condition hkind]
      rfl
    refine hvalue.bind fun expression hexpression ↦ .pure (hexpression.orElse ?_)
    rw [hdefault]
    decide
  · refine hvalue.bind fun expression hexpression ↦ ?_
    split
    · refine .pure ?_
      rcases constantText_cases hregular (constant (b.inputs.find? spec.name) spec.defaultText) with
        hplain | ⟨-, htoken⟩
      · exact hplain.isTidy
      · rw [htoken]
        exact Text.isTidy_format (isInline_constant hslot hspec.defaultText)
    · split
      · exact .pure hexpression
      · exact .pure (isTidy_marked hexpression)

/-! ### Arguments -/

/-- The texts at all positions are tidy. -/
def AreTidy (args : List (Nat × String)) : Prop :=
  ∀ arg ∈ args, Text.IsTidy arg.2

omit hspeak in
/-- A tidy argument put at its place keeps the arguments tidy. -/
theorem AreTidy.putAt {args : List (Nat × String)} (h : AreTidy args) (position : Nat)
    {text : String} (htext : Text.IsTidy text) : AreTidy (putAt position text args) := by
  induction args with
  | nil => exact List.forall_mem_singleton.2 htext
  | cons entry rest ih =>
    obtain ⟨hentry, hrest⟩ := List.forall_mem_cons.1 h
    rw [Listing.putAt]
    split
    · exact List.forall_mem_cons.2 ⟨htext, h⟩
    · split
      · exact List.forall_mem_cons.2 ⟨htext, hrest⟩
      · exact List.forall_mem_cons.2 ⟨hentry, ih hrest⟩

omit hspeak in
/-- The texts of fields are tidy arguments. -/
theorem AreTidy.putFields {b : Block} (hb : b.Shows Text.IsInline) {specs : List FieldSpec}
    (hspecs : ∀ spec ∈ specs, spec.IsInline) {args : List (Nat × String)} (h : AreTidy args) :
    AreTidy (specs.foldl (putField b) args) := by
  induction specs generalizing args with
  | nil => exact h
  | cons spec specs ih =>
    obtain ⟨hspec, hspecs⟩ := List.forall_mem_cons.1 hspecs
    refine ih hspecs ?_
    unfold putField
    split
    · refine h.putAt _ (Text.isTidy_format ?_)
      cases htext : b.fieldText? spec.name with
      | none =>
        cases hdefault : spec.default? with
        | none => exact (by decide : Text.IsInline "")
        | some value => exact hspec.default value hdefault
      | some text =>
        obtain ⟨field, hfield, rfl⟩ := Option.map_eq_some_iff.1 htext
        exact hb.fields spec.name field hfield
    · exact h

/-- The arguments of a block are tidy. -/
theorem arguments_gives (ht : t.Shows Text.IsInline) (site : Site) {b : Block}
    (hb : b.Shows Text.IsInline) {c : Command} (hregular : c.IsRegular) (hc : c.IsInline) :
    Gives (fun args ↦ ∀ arg ∈ args, Text.IsTidy arg) (arguments t speak site c b) := by
  have hfields : AreTidy (c.fields.foldl (putField b) []) :=
    AreTidy.putFields hb hc.fields (List.forall_mem_nil _)
  refine (Gives.foldlM (fun spec hspec args hargs ↦ ?_) hfields).bind
    fun args hargs ↦ .pure fun arg harg ↦ ?_
  · split
    · exact (inputText_gives hspeak ht site hb (hregular.inputs spec hspec)
        (hc.inputs spec hspec)).bind fun text htext ↦ .pure (hargs.putAt _ htext)
    · exact .pure hargs
  · obtain ⟨entry, hentry, rfl⟩ := List.mem_map.1 (List.mem_of_mem_filter harg)
    exact hargs entry hentry

/-! ### Expressions -/

/-- The operand of a comparison is tidy. -/
theorem operand_gives {slot : Option Slot} (hslot : ∀ s ∈ slot, s.IsInline) :
    Gives Text.IsTidy (operand speak slot) := by
  refine (computed_gives hspeak slot).bind fun expression hexpression ↦ ?_
  split
  · exact .pure hexpression
  · split
    · next value hvalue =>
      obtain ⟨s, hs, hliteral⟩ := Option.bind_eq_some_iff.1 hvalue
      exact .pure (Text.isTidy_format (hslot s hs value hliteral))
    · exact .pure (by decide)

/-- The operand of a connective is tidy. -/
theorem truthOperand_gives (slot : Option Slot) : Gives Text.IsTidy (truthOperand speak slot) :=
  (computed_gives hspeak slot).bind fun _ h ↦ .pure (h.orElse (by decide))

/-- A comparison is tidy. -/
theorem comparison_gives {symbol : String} (hsymbol : Text.IsTidy symbol) {b : Block}
    (hb : b.Shows Text.IsInline) : Gives Text.IsTidy (comparison speak symbol b) := by
  refine (operand_gives hspeak fun s hs ↦ hb.inputs _ s hs).bind fun left hleft ↦ ?_
  refine (operand_gives hspeak fun s hs ↦ hb.inputs _ s hs).bind fun right hright ↦ .pure ?_
  have hspace : Text.IsTidy " " := by decide
  exact Text.isTidy_trim ((((hleft.append hspace).append hsymbol).append hspace).append
    hright).inline

/-- A connective is tidy. -/
theorem connective_gives {word : String} (hword : Text.IsTidy word) (b : Block) :
    Gives Text.IsTidy (connective speak word b) := by
  refine (truthOperand_gives hspeak _).bind fun left hleft ↦ ?_
  refine (truthOperand_gives hspeak _).bind fun right hright ↦ .pure ?_
  exact ((((hword.append (by decide)).append hleft).append (by decide)).append hright).append
    (by decide)

omit hspeak in
/-- The name of a parameter is tidy. -/
theorem isTidy_argumentName {b : Block} (hb : b.Shows Text.IsInline) :
    Text.IsTidy (argumentName b) := by
  refine Text.isTidy_format (Text.isTidy_nameOr ?_ (by decide)).inline
  cases htext : b.fieldText? "VALUE" with
  | none => exact (by decide : Text.IsInline "")
  | some text =>
    obtain ⟨field, hfield, rfl⟩ := Option.map_eq_some_iff.1 htext
    exact hb.fields "VALUE" field hfield

/-- A block written as a call is tidy. -/
theorem callText_gives (hcat : catalog.IsRegular) (hinline : catalog.IsInline)
    (ht : t.Shows Text.IsInline) {b : Block} (hb : b.Shows Text.IsInline) :
    Gives Text.IsTidy (callText catalog t speak b) := by
  unfold callText
  split
  · refine (Gives.remark _).bind fun _ _ ↦ .pure ?_
    exact (Text.IsTidy.append (by decide) (Text.isTidy_format hb.opcode)).append (by decide)
  · next c hc =>
    have hmem := Catalog.mem_values_of_expressionFor? hc
    refine (arguments_gives hspeak ht .call hb (hcat.regular c hmem) (hinline c hmem)).bind
      fun args hargs ↦ .pure ?_
    exact (((hcat.isTidy_name hmem).append (by decide)).append
      (Text.isTidy_join (by decide) hargs)).append (by decide)

/-- The expression of a block is tidy in each of its forms. -/
theorem blockExpression_gives (hcat : catalog.IsRegular) (hinline : catalog.IsInline)
    (ht : t.Shows Text.IsInline) {b : Block} (hb : b.Shows Text.IsInline) :
    Gives Text.IsTidy (blockExpression catalog t speak b) := by
  have hname : ∀ opening, Text.IsTidy opening →
      Gives Text.IsTidy (pure (opening ++ argumentName b ++ ")") : Writer String) :=
    fun opening h ↦ .pure ((h.append (isTidy_argumentName hb)).append (by decide))
  unfold blockExpression
  split
  · exact comparison_gives hspeak (by decide) hb
  split
  · exact comparison_gives hspeak (by decide) hb
  split
  · exact comparison_gives hspeak (by decide) hb
  split
  · exact connective_gives hspeak (by decide) b
  split
  · exact connective_gives hspeak (by decide) b
  split
  · refine (truthOperand_gives hspeak _).bind fun inner hinner ↦ .pure ?_
    exact (Text.IsTidy.append (by decide) hinner).append (by decide)
  split
  · exact hname "arg(" (by decide)
  split
  · exact hname "arg_bool(" (by decide)
  · exact callText_gives hspeak hcat hinline ht hb

omit hspeak in
/-- The expressions of a target are tidy to any depth. -/
theorem expression_gives (hcat : catalog.IsRegular) (hinline : catalog.IsInline)
    (ht : t.Shows Text.IsInline) (bound : Nat) : SpeaksTidily (expression catalog t bound) := by
  induction bound with
  | zero => exact fun id ↦ (enter_gives ht id).bind fun _ _ ↦ .pure isTidy_empty
  | succ bound ih =>
    refine fun id ↦ (enter_gives ht id).bind fun visit hvisit ↦ ?_
    split
    · next b => exact blockExpression_gives ih hcat hinline ht (hvisit.1 b rfl)
    · exact .pure isTidy_empty

/-! ### Statements -/

/-- The line is indented, starts with a word of the catalog and goes on with texts of some kind. -/
def IsLineOf (kind : String → Prop) (catalog : Catalog) (line : String) : Prop :=
  ∃ depth word words, line = indent depth (commandLine word words) ∧ word ∈ catalog.leads ∧
    ∀ text ∈ words, kind text

/-- The line is indented, starts with a word of the catalog and goes on with tidy texts. -/
def IsLine (catalog : Catalog) (line : String) : Prop :=
  IsLineOf Text.IsTidy catalog line

end

section

variable {catalog : Catalog} {t : Target} {kind : String → Prop}

/-- A line of a single word is a line of a listing. -/
theorem isLineOf_word {word : String} (h : word ∈ catalog.leads) (depth : Nat) :
    IsLineOf kind catalog (indent depth word) :=
  ⟨depth, word, [], rfl, h, List.forall_mem_nil _⟩

/-- A line of one word and a single text. -/
theorem isLineOf_pair (word : String) {text : String} (hword : word ∈ catalog.leads)
    (htext : kind text) (depth : Nat) {line : String} (hline : line = word ++ " " ++ text) :
    IsLineOf kind catalog (indent depth line) := by
  refine ⟨depth, word, [text], ?_, hword, List.forall_mem_singleton.2 htext⟩
  rw [hline]
  rfl

/-- The lines of chains are lines of a listing. -/
def SpeaksLines (kind : String → Prop) (catalog : Catalog) (speakChain : SpeakChain) : Prop :=
  ∀ start depth,
    Gives (fun lines ↦ ∀ line ∈ lines, IsLineOf kind catalog line) (speakChain start depth)

/-- The lines of branches, with the word between them, are lines of a listing. -/
theorem branches_gives {speakChain : SpeakChain} (hchain : SpeaksLines kind catalog speakChain)
    (b : Block) (depth : Nat) (names : List String) :
    Gives (fun lines ↦ ∀ line ∈ lines, IsLineOf kind catalog line)
      (branches catalog speakChain b depth names) := by
  induction names with
  | nil => exact .pure (List.forall_mem_nil _)
  | cons name rest ih =>
    cases rest with
    | nil => exact hchain _ _
    | cons next rest =>
      refine (hchain _ _).bind fun body hbody ↦ ih.bind fun others hothers ↦ .pure ?_
      refine List.forall_mem_append.2 ⟨hbody,
        List.forall_mem_cons.2 ⟨isLineOf_word ?_ depth, hothers⟩⟩
      exact Catalog.keyword_mem_leads (by simp [Catalog.leads])

variable (hkind : Text.IsLineKind kind)

include hkind

/-- A definition is named as its prototype says, or with the name for one that says nothing. -/
theorem definedSignature_of (ht : t.Shows kind) (b : Block) : kind (definedSignature t b) := by
  have hfallback : Text.IsTidy SymbolKind.procedures.fallbackName := by decide
  unfold definedSignature
  split
  · next procedure hprocedure =>
    obtain ⟨prototype, hprototype, hprocedure⟩ := Option.bind_eq_some_iff.1 hprocedure
    obtain ⟨id, -, hfind⟩ := Option.bind_eq_some_iff.1 hprototype
    exact Text.orElse_of ((ht id prototype hfind).2.procedure procedure hprocedure)
      (hkind.of_isTidy hfallback)
  · exact hkind.of_isTidy hfallback

/-- A call names the procedure of its block, or the name for one that names none. -/
theorem calledSignature_of {b : Block} (hb : b.Shows kind) : kind (calledSignature b) := by
  have hfallback : Text.IsTidy SymbolKind.procedures.fallbackName := by decide
  unfold calledSignature
  split
  · next procedure hprocedure =>
    exact hkind.of_isTidy
      (Text.isTidy_nameOr (hkind.inline (hb.procedure procedure hprocedure)) hfallback)
  · exact hkind.of_isTidy hfallback

/-- The lines of one statement are lines of a listing. -/
theorem statement_gives (hcat : catalog.IsRegular) (hinline : catalog.IsInline)
    (ht : t.Shows kind) {speak : Speak} (hspeak : SpeaksTidily speak) {speakChain : SpeakChain}
    (hchain : SpeaksLines kind catalog speakChain) {b : Block} (hb : b.Shows kind) (depth : Nat) :
    Gives (fun lines ↦ ∀ line ∈ lines, IsLineOf kind catalog line)
      (statement catalog t speak speakChain b depth) := by
  unfold statement
  split
  · exact .pure (List.forall_mem_singleton.2
      (isLineOf_pair "define" (by simp [Catalog.leads]) (definedSignature_of hkind ht b) depth rfl))
  split
  · exact .pure (List.forall_mem_singleton.2
      (isLineOf_pair "call" (by simp [Catalog.leads]) (calledSignature_of hkind hb) depth rfl))
  split
  · refine (Gives.remark _).bind fun _ _ ↦ .pure (List.forall_mem_singleton.2 ?_)
    -- the remark names the operation code, which has no line feed by assumption
    have hremark : kind ("unsupported opcode: " ++ b.opcode) :=
      hkind.append (hkind.of_isTidy (by decide)) hb.opcode
    refine isLineOf_pair "#" (by simp [Catalog.leads]) hremark depth ?_
    rw [← String.append_assoc]
    rfl
  · next c hc =>
    have hmem : c ∈ catalog.commands.values := by
      have hfound := (Option.filter_eq_some_iff.1 hc).1
      split at hfound
      · exact Catalog.mem_values_of_commandFor? hfound
      · exact Catalog.mem_values_of_commandFor? hfound
    have hlead : c.name ∈ catalog.leads := List.mem_append_right _ (List.mem_map_of_mem hmem)
    refine (arguments_gives hspeak (ht.mono hkind.inline) .line (hb.mono hkind.inline)
      (hcat.regular c hmem) (hinline c hmem)).bind fun args hargs ↦ ?_
    have hheader : IsLineOf kind catalog (indent depth (commandLine c.name args)) :=
      ⟨depth, c.name, args, rfl, hlead, fun text htext ↦ hkind.of_isTidy (hargs text htext)⟩
    dsimp only
    split
    · exact .pure (List.forall_mem_singleton.2 hheader)
    · refine (branches_gives hchain b depth _).bind fun body hbody ↦ .pure ?_
      refine List.forall_mem_append.2 ⟨List.forall_mem_cons.2 ⟨hheader, hbody⟩,
        List.forall_mem_singleton.2 (isLineOf_word ?_ depth)⟩
      exact Catalog.keyword_mem_leads (by simp [Catalog.leads])

/-- The line that marks a return to a block is a comment. -/
theorem isLineOf_cycleLine {id : BlockId} (hid : kind id) (depth : Nat) :
    IsLineOf kind catalog (cycleLine depth id) := by
  have hremark : kind ("warning: cyclic block chain at " ++ id) :=
    hkind.append (hkind.of_isTidy (by decide)) hid
  refine isLineOf_pair "#" (by simp [Catalog.leads]) hremark depth ?_
  rw [← String.append_assoc]
  rfl

/-- The lines of a chain are lines of a listing, however far the chain is followed. -/
theorem chain_gives (hcat : catalog.IsRegular) (hinline : catalog.IsInline) (ht : t.Shows kind)
    (bound : Nat) : SpeaksLines kind catalog (chain catalog t bound) := by
  induction bound with
  | zero =>
    intro start depth
    cases start with
    | none => exact .pure (List.forall_mem_nil _)
    | some id =>
      refine (enter_gives ht id).bind fun visit hvisit ↦ ?_
      split
      · exact .pure (List.forall_mem_singleton.2 (isLineOf_cycleLine hkind (hvisit.2 rfl) depth))
      · exact .pure (List.forall_mem_nil _)
  | succ bound ih =>
    intro start depth
    cases start with
    | none => exact .pure (List.forall_mem_nil _)
    | some id =>
      refine (enter_gives ht id).bind fun visit hvisit ↦ ?_
      split
      · exact .pure (List.forall_mem_nil _)
      · exact .pure (List.forall_mem_singleton.2 (isLineOf_cycleLine hkind (hvisit.2 rfl) depth))
      · next b =>
        -- the statement is written by what is left of the bound, and so is the rest of the chain
        have hspeak := expression_gives hcat hinline (ht.mono hkind.inline) bound
        refine (statement_gives hkind hcat hinline ht hspeak ih (hvisit.1 b rfl) depth).bind
          fun lines hlines ↦ ?_
        exact (ih _ depth).bind fun more hmore ↦
          .pure (List.forall_mem_append.2 ⟨hlines, hmore⟩)

end

/-! ### Targets -/

section

variable {catalog : Catalog} {t : Target}

/-- The initial value of a variable is shown as a number or as one token. -/
theorem isTidy_initialValue {text : String}
    (h : Text.IsInline text ∨ Text.isBlank text = false ∧ (Number.parse? text).isSome = true) :
    Text.IsTidy (initialValue text) := by
  have hnumber : ∀ n, Text.IsTidy (Number.format n) := fun n ↦
    Text.isTidy_of_word fun c hc ↦ by simp [isWordChar, (Number.format_plain n).1 c hc]
  unfold initialValue
  rcases h with h | ⟨hblank, hparse⟩
  · split
    · exact Text.isTidy_format h
    · split
      · exact hnumber _
      · exact Text.isTidy_format h
  · obtain ⟨n, hn⟩ := Option.isSome_iff_exists.1 hparse
    simp only [hblank, hn, Bool.false_eq_true, if_false]
    exact hnumber n

/-- A command with tidy words is a line of a listing. -/
theorem isLine_command {word : String} (hword : word ∈ catalog.leads) {words : List String}
    (hwords : ∀ text ∈ words, Text.IsTidy text) : IsLine catalog (commandLine word words) :=
  ⟨0, word, words, by simp [indent, Text.replicate], hword, hwords⟩

/-- A name is shown without the white space around it. -/
theorem isTidy_shownName {name fallback : String} (h : Text.IsInline (Text.trim name))
    (hfallback : Text.IsTidy fallback) : Text.IsTidy (Text.nameOr name fallback) := by
  unfold Text.nameOr
  dsimp only
  split
  · exact hfallback
  · refine h.isTidy ?_
    rw [Text.trim, String.toList_ofList]
    exact Chars.getLast?_trim _

/-- The declarations of one kind are lines of a listing. -/
theorem isLine_of_mem_symbolLines {command fallback : String} (hcommand : command ∈ catalog.leads)
    (hfallback : Text.IsTidy fallback) {symbols : List Symbol}
    (h : ∀ s ∈ symbols, Text.IsInline (Text.trim s.name)) :
    ∀ line ∈ symbolLines command fallback symbols, IsLine catalog line := by
  intro line hline
  obtain ⟨name, hname, rfl⟩ := List.mem_map.1 hline
  obtain ⟨s, hs, rfl⟩ := List.mem_map.1 (List.mem_mergeSort.1 hname)
  exact isLine_command hcommand
    (List.forall_mem_singleton.2 (Text.isTidy_format (isTidy_shownName (h s hs) hfallback).inline))

/-- The declarations of a target are lines of a listing. -/
theorem isLine_of_mem_declarationLines (ht : t.DeclaresInline) :
    ∀ line ∈ declarationLines t, IsLine catalog line := by
  unfold declarationLines
  refine List.forall_mem_append.2 ⟨List.forall_mem_append.2 ⟨fun line hline ↦ ?_, ?_⟩, ?_⟩
  · obtain ⟨v, hv, rfl⟩ := List.mem_map.1 hline
    obtain ⟨w, hw, rfl⟩ := List.mem_map.1 (List.mem_mergeSort.1 hv)
    obtain ⟨hname, hvalue⟩ := ht.vars w hw
    have hfallback : Text.IsTidy (if t.isStage then "stage_var" else "sprite_var") := by
      split <;> decide
    have hname' := (isTidy_shownName hname hfallback).inline
    dsimp only
    exact isLine_command (by simp [Catalog.leads]) (List.forall_mem_cons.2
      ⟨Text.isTidy_format hname', List.forall_mem_singleton.2 (isTidy_initialValue hvalue)⟩)
  · exact isLine_of_mem_symbolLines (by simp [Catalog.leads]) (by decide) ht.lists
  · split
    · next hstage =>
      exact isLine_of_mem_symbolLines (by simp [Catalog.leads]) (by decide) (ht.broadcasts hstage)
    · exact List.forall_mem_nil _

/-- What each item gives, all items give. -/
theorem mapM_gives {β γ : Type} {work : β → Writer γ} {post : γ → Prop}
    (h : ∀ b, Gives post (work b)) (l : List β) :
    Gives (fun results ↦ ∀ r ∈ results, post r) (l.mapM work) := by
  induction l with
  | nil => exact .pure (List.forall_mem_nil _)
  | cons b l ih =>
    rw [List.mapM_cons]
    exact (h b).bind fun r hr ↦ ih.bind fun rs hrs ↦ .pure (List.forall_mem_cons.2 ⟨hr, hrs⟩)

/-- A script is appended after an empty line at most. -/
theorem mem_appendScript {lines script : List String} {line : String}
    (h : line ∈ appendScript lines script) : line = "" ∨ line ∈ lines ∨ line ∈ script := by
  unfold appendScript at h
  split at h
  · exact .inr (.inl h)
  · split at h
    · split at h
      · exact .inr (List.mem_append.1 h)
      · rcases List.mem_append.1 h with h | h
        · exact .inr (.inl h)
        · exact (List.mem_cons.1 h).imp_right .inr
    · exact .inr (.inr h)

section

variable {kind : String → Prop} (hkind : Text.IsLineKind kind) (hcat : catalog.IsRegular)
  (hinline : catalog.IsInline) (ht : t.Shows kind)

include hkind hcat hinline ht

/-- The lines of all scripts are lines of a listing. -/
theorem isLineOf_of_mem_scripts :
    ∀ script ∈ ((scripts catalog t).run {}).1, ∀ line ∈ script, IsLineOf kind catalog line :=
  mapM_gives (fun root ↦ chain_gives hkind hcat hinline ht _ (some root) 0) t.roots {}

/-- **A target whose texts stay on one line is listed in lines that do.** -/
theorem isLineOf_of_mem_targetLines (hdeclares : t.DeclaresInline) {line : String}
    (h : line ∈ (targetLines catalog t).1) : line = "" ∨ IsLineOf kind catalog line := by
  have hscripts := isLineOf_of_mem_scripts hkind hcat hinline ht
  have hdeclared : ∀ line ∈ declarationLines t, IsLineOf kind catalog line := by
    intro line hline
    obtain ⟨depth, word, words, heq, hword, hwords⟩ :=
      (isLine_of_mem_declarationLines hdeclares line hline : IsLine catalog line)
    exact ⟨depth, word, words, heq, hword, fun text htext ↦ hkind.of_isTidy (hwords text htext)⟩
  -- a script goes behind the lines so far, perhaps after an empty line
  have hfold : ∀ (all : List (List String)) (lines : List String),
      (∀ script ∈ all, ∀ line ∈ script, IsLineOf kind catalog line) →
      (∀ line ∈ lines, line = "" ∨ IsLineOf kind catalog line) →
      ∀ line ∈ all.foldl appendScript lines, line = "" ∨ IsLineOf kind catalog line := by
    intro all
    induction all with
    | nil => exact fun lines _ hlines ↦ hlines
    | cons script all ih =>
      intro lines hall hlines
      obtain ⟨hscript, hall⟩ := List.forall_mem_cons.1 hall
      refine ih _ hall fun line hline ↦ ?_
      rcases mem_appendScript hline with h | h | h
      · exact .inl h
      · exact hlines line h
      · exact .inr (hscript line h)
  -- blank lines are dropped at the end only
  have hmem : line ∈ ((scripts catalog t).run {}).1.foldl appendScript (declarationLines t) := by
    have hdropped := List.mem_reverse.1 h
    exact List.mem_reverse.1 ((List.dropWhile_sublist _).subset hdropped)
  exact hfold _ _ hscripts (fun line hline ↦ .inr (hdeclared line hline)) line hmem

end

end

end Listing

end BlockScript
