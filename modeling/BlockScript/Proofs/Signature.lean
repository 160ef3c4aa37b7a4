import BlockScript.Proofs.Boundary
import BlockScript.Proofs.Parts

/-!
# Procedures read again

A definition and a call are written with the signature of their procedure as it is, without quotes,
and whoever reads the line again joins its tokens with single spaces. So a signature with other
white space or with quotes in it is read as another one (`Sheet.reread_eq_self_iff`), and two
signatures may be read as the same.

The target that is built from such lines has a block for each of them
(`Sheet.takes_procedureLines`), and all names that differ in nothing but case are spelled as one of
them (`Symbols.Answers.isSpelling`). So the lines that are written for the procedures of a target
give these procedures again exactly if all signatures are plain (`Script.rebuilt_procedures`).
-/

namespace BlockScript

variable {α : Type} {catalog : Catalog} {target : TargetKind} {symbols : Symbols}

/-! ### Plain signatures -/

/-- The text consists of words with single spaces between them, and no word is in quotes. -/
def Signature.IsPlain (s : String) : Prop :=
  Text.join " " (Token.splitLine s) = s ∧ ∀ w ∈ Token.splitLine s, Token.unquote w = w

instance (s : String) : Decidable (Signature.IsPlain s) :=
  inferInstanceAs (Decidable (_ ∧ _))

namespace Chars

/-- A trimmed text keeps its characters in order. -/
theorem trim_sublist (cs : List Char) : (trim cs).Sublist cs :=
  (trimEnd_isPrefix _).sublist.trans (List.dropWhile_sublist _)

/-- Trimming and dropping quotes leave nothing out only where there is nothing to leave out. -/
theorem unquote_eq_self {cs : List Char} (h : cs.length ≤ (unquote cs).length) :
    unquote cs = cs := by
  have htrim := (trim_sublist cs).length_le
  unfold unquote at h ⊢
  dsimp only at h ⊢
  split
  · next hwrapped =>
    rw [if_pos hwrapped] at h
    have hunescape := length_unescape_le ((trim cs).drop 1).dropLast
    simp only [List.length_dropLast, List.length_drop] at hunescape
    have hempty : trim cs = [] := List.eq_nil_of_length_eq_zero (by omega)
    rw [hempty] at hwrapped
    cases hwrapped
  · next hwrapped =>
    rw [if_neg hwrapped] at h
    exact (trim_sublist cs).eq_of_length_le h

end Chars

/-- Trimming that drops no character changes nothing. -/
theorem Text.eq_trim_of_length {s : String} (h : s.length ≤ (trim s).length) : s = trim s := by
  rw [trim, String.length_ofList, ← String.length_toList] at h
  rw [trim, (Chars.trim_sublist s.toList).eq_of_length_le h, String.ofList_toList]

/-- A text that is not shorter without its quotes has none. -/
theorem Token.unquote_eq_self_of_length {w : String} (h : w.length ≤ (unquote w).length) :
    unquote w = w := by
  rw [unquote, String.length_ofList, ← String.length_toList] at h
  rw [unquote, Chars.unquote_eq_self h, String.ofList_toList]

/-- Where shorter texts take as much room as the longer ones, none is shorter. -/
theorem length_le_of_extent_map {f : String → String} (hf : ∀ s, (f s).length ≤ s.length) :
    ∀ {texts : List String}, extent texts ≤ extent (texts.map f) →
      ∀ s ∈ texts, s.length ≤ (f s).length
  | [], _ => List.forall_mem_nil _
  | first :: texts, h => by
    have hfirst := hf first
    have hrest := extent_map_le hf texts
    rw [List.map_cons, extent_cons, extent_cons] at h
    exact List.forall_mem_cons.2 ⟨by omega, length_le_of_extent_map hf (by omega)⟩

/-- **A signature is read as itself exactly if it is plain.** Otherwise there is less of it than was
written. -/
theorem Sheet.reread_eq_self_iff {s : String} (hs : Text.isProper s = true) :
    reread s = s ↔ Signature.IsPlain s := by
  rw [reread, Text.trim_of_isProper hs, signature, Token.tokenize]
  constructor
  · intro h
    simp only [Text.nameOr] at h
    split at h
    · rw [← h]
      decide
    · -- nothing was left out, as the text would be shorter otherwise
      have hne : Token.splitLine s ≠ [] := by
        intro hnil
        rw [hnil] at h
        subst h
        cases hs
      have htrim := Text.length_trim_le (Text.join " " ((Token.splitLine s).map Token.unquote))
      have hjoin := Text.length_join (mt (List.map_eq_nil_iff (f := Token.unquote)).1 hne)
      have hsplit := Token.extent_splitLine s
      have hshorter := extent_map_le Token.length_unquote_le (Token.splitLine s)
      have hunquote : ∀ w ∈ Token.splitLine s, Token.unquote w = w := fun w hw ↦
        Token.unquote_eq_self_of_length
          (length_le_of_extent_map Token.length_unquote_le (by rw [h] at htrim; omega) w hw)
      rw [List.map_congr_left hunquote, List.map_id'] at h hjoin htrim
      refine ⟨?_, hunquote⟩
      exact (Text.eq_trim_of_length (by rw [h]; omega)).trans h
  · rintro ⟨hjoin, hunquote⟩
    rw [List.map_congr_left hunquote, List.map_id', hjoin, Text.nameOr_of_isProper hs]

/-! ### Spelling -/

/-- Each of the names is spelled as one of them, and those that differ in nothing but case are
spelled alike. -/
structure IsSpelling (spell : String → String) (names : List String) : Prop where
  mem : ∀ name ∈ names, spell name ∈ names
  lower : ∀ name ∈ names, Text.lower (spell name) = Text.lower name
  eq_iff : ∀ name ∈ names, ∀ other ∈ names,
    spell name = spell other ↔ Text.lower name = Text.lower other

namespace Symbols

/-- A name as it is spelled where it is declared. -/
def spell (symbols : Symbols) (kind : SymbolKind) (name : String) : String :=
  ((symbols.lookup? kind name).map Symbol.name).getD name

/-- Each name that was asked for is spelled as the first of its kind. -/
theorem Answers.isSpelling {asked : List Request} (h : symbols.Answers asked)
    (hinherited : symbols.inherited = []) {kind : SymbolKind} {names : List String}
    (hnames : ∀ name, (kind, name) ∈ asked ↔ name ∈ names) :
    IsSpelling (symbols.spell kind) names := by
  have hentry : ∀ name ∈ names, ∃ entry ∈ symbols.own.get kind,
      entry.name = symbols.spell kind name ∧ Text.lower entry.name = Text.lower name := by
    intro name hname
    obtain ⟨symbol, hsymbol⟩ := Option.isSome_iff_exists.1 (h.known _ ((hnames name).2 hname))
    obtain ⟨entry, hentry, hspell, hlower⟩ := mem_own_of_lookup? hinherited hsymbol
    exact ⟨entry, hentry, by rw [hspell, spell, hsymbol]; rfl, hlower⟩
  have hlower : ∀ name ∈ names, Text.lower (symbols.spell kind name) = Text.lower name := by
    intro name hname
    obtain ⟨entry, -, hspell, hlower⟩ := hentry name hname
    rw [← hspell, hlower]
  refine ⟨fun name hname ↦ ?_, hlower, fun name hname other hother ↦ ⟨fun heq ↦ ?_, fun heq ↦ ?_⟩⟩
  · obtain ⟨entry, hentry, hspell, -⟩ := hentry name hname
    rw [← hspell]
    exact (hnames _).1 (h.named kind entry hentry)
  · rw [← hlower name hname, heq, hlower other hother]
  · obtain ⟨entry, -, hspell, -⟩ := hentry name hname
    have hsame : symbols.lookup? kind name = symbols.lookup? kind other := by
      rw [lookup?_of_inherited hinherited, lookup?_of_inherited hinherited, SymbolTables.find?,
        SymbolTables.find?, heq]
    obtain ⟨symbol, hsymbol⟩ := Option.isSome_iff_exists.1 (h.known _ ((hnames name).2 hname))
    rw [spell, spell, ← hsame, hsymbol]
    rfl

end Symbols

/-- Where no two signatures differ in nothing but case, they are all read and spelled as they are
exactly if all of them are plain. -/
theorem IsSpelling.reread_iff {spell : String → String} {names : List String}
    (h : IsSpelling spell (names.map Sheet.reread)) (hproper : ∀ s ∈ names, Text.isProper s = true)
    (hdistinct : ∀ s ∈ names, ∀ s' ∈ names, Text.lower s = Text.lower s' → s = s') :
    (∀ s ∈ names, spell (Sheet.reread s) = s) ↔ ∀ s ∈ names, Signature.IsPlain s := by
  have hplain : ∀ s ∈ names, (Sheet.reread s = s ↔ Signature.IsPlain s) := fun s hs ↦
    Sheet.reread_eq_self_iff (hproper s hs)
  constructor
  · intro hall s hs
    refine (hplain s hs).1 ?_
    -- the signature is what some signature is read as, and this one is no other
    have hmem := h.mem _ (List.mem_map_of_mem hs)
    rw [hall s hs] at hmem
    obtain ⟨s', hs', hread⟩ := List.mem_map.1 hmem
    have hlower := h.lower _ (List.mem_map_of_mem hs')
    rw [hall s' hs', hread] at hlower
    obtain rfl := hdistinct s' hs' s hs hlower
    exact hread
  · intro hall s hs
    have hread : ∀ s ∈ names, Sheet.reread s = s := fun s hs ↦ (hplain s hs).2 (hall s hs)
    have hnames : names.map Sheet.reread = names := by
      rw [List.map_congr_left hread, List.map_id']
    rw [hnames] at h
    rw [hread s hs]
    exact hdistinct _ (h.mem s hs) s hs (h.lower s hs)

/-! ### Lines of procedures -/

/-- Whether a block defines or calls a procedure. -/
def Opcode.isProcedure (opcode : String) : Bool :=
  opcode == definition || opcode == call

/-- Whether a block defines or calls a procedure. -/
def Block.isProcedure (b : Block) : Bool :=
  Opcode.isProcedure b.opcode

/-- What a line says that defines or calls a procedure. -/
inductive ProcedureLine where
  | definition (signature : String)
  | call (signature : String)
deriving DecidableEq, Repr

namespace ProcedureLine

/-- The signature of the procedure. -/
def signature : ProcedureLine → String
  | definition s => s
  | call s => s

/-- The same for another procedure. -/
def map (f : String → String) : ProcedureLine → ProcedureLine
  | definition s => definition (f s)
  | call s => call (f s)

/-- The text of the line. -/
def text : ProcedureLine → String
  | definition s => "define " ++ s
  | call s => "call " ++ s

/-- The block of the line in a tree. -/
def part : ProcedureLine → Part Unit
  | definition s => ⟨(), { opcode := Opcode.definition },
      Content.slot { shadow := Sheet.prototype () s } "custom_block"⟩
  | call s => ⟨(), { opcode := Opcode.call, procedure := some s }, .nil⟩

/-- The signature of a changed line is the changed signature. -/
@[simp]
theorem signature_map (f : String → String) (l : ProcedureLine) :
    (l.map f).signature = f l.signature := by
  cases l <;> rfl

/-- Two changes of a line are one. -/
theorem map_map (f g : String → String) (l : ProcedureLine) :
    (l.map f).map g = l.map fun s ↦ g (f s) := by
  cases l <;> rfl

/-- Only lines that keep their signatures stay the same. -/
theorem map_eq_self_iff {f : String → String} {lines : List ProcedureLine} :
    lines.map (·.map f) = lines ↔ ∀ s ∈ lines.map signature, f s = s := by
  have hself : ∀ l : ProcedureLine, l.map f = l ↔ f l.signature = l.signature := by
    intro l
    cases l <;> simp [map, signature]
  rw [List.forall_mem_map]
  refine ⟨fun h l hl ↦ (hself l).1 ?_, fun h ↦ ?_⟩
  · exact List.map_inj_left.1 (h.trans (List.map_id lines).symm) l hl
  · rw [List.map_congr_left fun l hl ↦ (hself l).2 (h l hl), List.map_id']

end ProcedureLine

/-- The line of a definition or a call, if the block has a procedure. -/
def Target.procedureLine? (t : Target) (b : Block) : Option ProcedureLine :=
  if b.opcode = Opcode.definition then
    ((((b.inputs.find? "custom_block").bind Slot.shadow?).bind t.blocks.find?).bind
      Block.procedure).map fun p ↦ .definition p.signature
  else if b.opcode = Opcode.call then b.procedure.map fun p ↦ .call p.signature
  else none

/-- Whoever writes a statement writes this line for the block and nothing else. -/
def Target.Writes (catalog : Catalog) (t : Target) (b : Block) (line : String) : Prop :=
  ∃ speak speakChain depth walk,
    ((Listing.statement catalog t speak speakChain b depth).run walk).1 = [line]

/-- The line of a procedure is written as such, with some indentation. -/
theorem Target.Writes.exists_depth {t : Target} {b : Block} {line : String}
    (h : t.Writes catalog b line) {l : ProcedureLine} (hl : t.procedureLine? b = some l)
    (hproper : Text.isProper l.signature = true) : ∃ depth, line = Listing.indent depth l.text := by
  obtain ⟨speak, speakChain, depth, walk, h⟩ := h
  refine ⟨depth, ?_⟩
  unfold Target.procedureLine? at hl
  unfold Listing.statement at h
  split at hl
  · next hopcode =>
    obtain ⟨procedure, hprocedure, rfl⟩ := Option.map_eq_some_iff.1 hl
    have hne : procedure.signature ≠ "" := (Text.isProper_iff.1 hproper).2
    have hsignature : Listing.definedSignature t b = procedure.signature := by
      simp [Listing.definedSignature, hprocedure, Text.orElse, hne]
    rw [if_pos (beq_iff_eq.2 hopcode), hsignature] at h
    exact (List.singleton_inj.1 h).symm
  · next hne =>
    split at hl
    · next hopcode =>
      obtain ⟨procedure, hprocedure, rfl⟩ := Option.map_eq_some_iff.1 hl
      have hsignature : Listing.calledSignature b = procedure.signature := by
        simp only [Listing.calledSignature, hprocedure]
        exact Text.nameOr_of_isProper hproper _
      rw [if_neg (mt beq_iff_eq.1 hne), if_pos (beq_iff_eq.2 hopcode), hsignature] at h
      exact (List.singleton_inj.1 h).symm
    · cases hl

/-! ### Blocks of definitions and calls -/

/-- A node with a procedure names one that is declared. -/
theorem Node.exists_symbol {node : Node} {name : String} (hname : node.procedure = some name)
    {procedure : Option Procedure} (h : node.procedure? symbols = some procedure) :
    (symbols.lookup? .procedures name).isSome ∧
      procedure = some { signature := symbols.spell .procedures name } := by
  rw [Node.procedure?, hname] at h
  obtain ⟨symbol, hsymbol, rfl⟩ := Option.map_eq_some_iff.1 h
  rw [Symbols.spell, hsymbol]
  exact ⟨rfl, rfl⟩

/-- The block of a line says what the line says, with the signature as it is spelled. -/
theorem Part.IsBlock.procedureLine?_eq {t : Target} {p : Part BlockId} {b : Block}
    (h : p.IsBlock ⟨t.blocks, symbols⟩ b) {l : ProcedureLine} (hp : p.erase = l.part) :
    (symbols.lookup? .procedures l.signature).isSome ∧
      t.procedureLine? b = some (l.map (symbols.spell .procedures)) := by
  obtain ⟨tag, node, slots⟩ := p
  obtain ⟨-, ⟨s, hsaid⟩, hslots⟩ := h
  cases l with
  | definition name =>
    obtain ⟨-, rfl, herase⟩ := Part.mk.inj hp
    obtain ⟨tag', rfl⟩ := Slots.eq_of_erase_definition herase
    obtain ⟨⟨slot, hfind, hslot⟩, -, ⟨prototype, hprototype, hprototypeSaid, -⟩, -⟩ := hslots
    obtain ⟨hsymbol, hprocedure⟩ := Node.exists_symbol rfl hprototypeSaid.procedure
    have hshadow : slot.shadow? = some tag' := hslot.shadow
    have hblock : t.blocks.find? tag' = some prototype := hprototype
    have hopcode : b.opcode = Opcode.definition := hsaid.opcode
    refine ⟨hsymbol, ?_⟩
    simp only [Target.procedureLine?, hopcode, if_true, hfind, Option.bind_some, hshadow, hblock,
      hprocedure, Option.map_some]
    rfl
  | call name =>
    obtain ⟨-, rfl, -⟩ := Part.mk.inj hp
    obtain ⟨hsymbol, hprocedure⟩ := Node.exists_symbol rfl hsaid.procedure
    have hopcode : b.opcode = Opcode.call := hsaid.opcode
    have hne : ¬Opcode.call = Opcode.definition := by decide
    refine ⟨hsymbol, ?_⟩
    simp only [Target.procedureLine?, hopcode, if_neg hne, if_true, hprocedure, Option.map_some]
    rfl

/-- No menu is taken for a definition or a call. -/
def Catalog.HasPlainMenus (catalog : Catalog) : Prop :=
  ∀ c ∈ catalog.commands.values, ∀ spec ∈ c.inputs, ∀ opcode ∈ spec.menuOpcode,
    Opcode.isProcedure opcode = false

/-- No menu of the built-in catalog is taken for a procedure. -/
theorem Catalog.builtin_hasPlainMenus : builtin.HasPlainMenus := by
  have hall : ∀ c ∈ builtinCommands, ∀ spec ∈ c.inputs, ∀ opcode ∈ spec.menuOpcode,
      Opcode.isProcedure opcode = false := by decide +kernel
  exact fun c hc ↦ hall c (mem_builtinCommands hc)

/-- The block is no definition and no call, or it is one of a procedure. -/
def Part.HasLine (p : Part α) : Prop :=
  Opcode.isProcedure p.node.opcode = true → ∃ l : ProcedureLine, p.erase = l.part

/-- Only two commands of a regular catalog make blocks of procedures. -/
theorem Catalog.IsRegular.eq_of_isProcedure (hcat : catalog.IsRegular) {c : Command}
    (hmem : c ∈ catalog.commands.values) (hkind : c.kind.makesBlock = true)
    (h : Opcode.isProcedure c.opcode = true) : c = .definition ∨ c = .procedureCall := by
  rw [Opcode.isProcedure, Bool.or_eq_true, beq_iff_eq, beq_iff_eq] at h
  rcases h with h | h
  · exact .inl (hcat.eq_essential hmem hkind (by decide) (by rw [h]; rfl))
  · exact .inr (hcat.eq_essential hmem hkind (by decide) (by rw [h]; rfl))

/-- A statement makes a block. -/
theorem CommandKind.makesBlock_of_isStatement {kind : CommandKind} (h : kind.isStatement = true) :
    kind.makesBlock = true := by
  cases kind <;> first
    | rfl
    | cases h

/-- The node of a call has a procedure and nothing else. -/
theorem Node.Fits.exists_call {node : Node} (h : node.Fits .procedureCall) :
    ∃ name, node = { opcode := Opcode.call, procedure := some name } := by
  obtain ⟨opcode, fields, procedure⟩ := node
  obtain ⟨rfl, hfields, -, hprocedure⟩ := h
  obtain ⟨name, rfl⟩ := Option.isSome_iff_exists.1 hprocedure
  obtain rfl : fields = [] := List.map_eq_nil_iff.1 hfields
  exact ⟨name, rfl⟩

/-- The shadow of a slot is no block of a procedure. -/
theorem InputSpec.Admits.hasLine {spec : InputSpec} {compares : Bool} {constant : Option Literal}
    {value shadow : Chain α} (h : spec.Admits compares constant value shadow)
    (hmenu : ∀ opcode ∈ spec.menuOpcode, Opcode.isProcedure opcode = false) :
    ∀ p ∈ shadow.parts, p.HasLine := by
  by_cases hkind : spec.kind = .menu
  · simp only [Admits, hkind] at h
    obtain ⟨-, tag, opcode, field, hopcode, rfl, -⟩ := h
    intro p hp hprocedure
    obtain rfl := List.mem_singleton.1 hp
    cases (hmenu opcode hopcode).symm.trans hprocedure
  · have hnil : shadow = .nil := by
      by_cases hboolean : spec.kind = .boolean
      · simp only [Admits, hboolean] at h
        exact h.2.1
      · exact (h.literal hkind hboolean).1
    rw [hnil]
    exact List.forall_mem_nil _

mutual

/-- No part of an expression is a definition or a call without a procedure. -/
theorem Chain.IsValue.hasLine (hcat : catalog.IsRegular) (hmenus : catalog.HasPlainMenus) :
    ∀ {c : Chain α}, c.IsValue catalog target → ∀ p ∈ c.parts, p.HasLine
  | .nil, _, _, hp => absurd hp List.not_mem_nil
  | .cons tag node slots rest, ⟨hrest, c, hmem, hkind, _, hnode, hslots⟩, p, hp => by
    subst hrest
    rcases List.mem_cons.1 hp with rfl | hp
    · intro hprocedure
      rcases hcat.eq_of_isProcedure hmem (CommandKind.makesBlock_of_isExpression hkind)
        (hnode.opcode ▸ hprocedure) with rfl | rfl <;> cases hkind
    · rw [Chain.parts, List.append_nil] at hp
      exact hslots.hasLine hcat hmenus (hmenus c hmem) p hp

/-- No part of statements is a definition or a call without a procedure. -/
theorem Chain.IsBody.hasLine (hcat : catalog.IsRegular) (hmenus : catalog.HasPlainMenus) :
    ∀ {c : Chain α}, c.IsBody catalog target → ∀ p ∈ c.parts, p.HasLine
  | .nil, _, _, hp => absurd hp List.not_mem_nil
  | .cons tag node slots rest, ⟨⟨c, hmem, hkind, _, hnode, hslots⟩, hrest⟩, p, hp => by
    rcases List.mem_cons.1 hp with rfl | hp
    · intro hprocedure
      rcases hcat.eq_of_isProcedure hmem (CommandKind.makesBlock_of_isStatement hkind)
        (hnode.opcode ▸ hprocedure) with rfl | rfl
      · cases hkind
      · obtain ⟨name, rfl⟩ := hnode.exists_call
        obtain rfl := Slots.Fill.eq_nil hslots
        exact ⟨.call name, rfl⟩
    · rcases List.mem_append.1 hp with hp | hp
      · exact hslots.hasLine hcat hmenus (hmenus c hmem) p hp
      · exact hrest.hasLine hcat hmenus p hp

/-- No part of the slots of a block is a definition or a call without a procedure. -/
theorem Slots.Fill.hasLine (hcat : catalog.IsRegular) (hmenus : catalog.HasPlainMenus)
    {compares : Bool} : ∀ {specs : List InputSpec} {names : List String}
    {s : Slots α}, s.Fill catalog target compares specs names →
      (∀ spec ∈ specs, ∀ opcode ∈ spec.menuOpcode, Opcode.isProcedure opcode = false) →
        ∀ p ∈ s.parts, p.HasLine
  | [], _, .nil, _, _, _, hp => absurd hp List.not_mem_nil
  | [], _, .cons .., ⟨⟨_, hshadow, _, _⟩, hbody, hrest⟩, hmenu, p, hp => by
    subst hshadow
    simp only [Slots.parts, Chain.parts, List.nil_append, List.mem_append] at hp
    exact hp.elim (hbody.hasLine hcat hmenus p) (hrest.hasLine hcat hmenus hmenu p)
  | spec :: _, _, .cons .., ⟨⟨_, hadmits⟩, hvalue, hrest⟩, hmenu, p, hp => by
    simp only [Slots.parts, List.mem_append] at hp
    rcases hp with hp | hp | hp
    · exact hadmits.hasLine (hmenu spec List.mem_cons_self) p hp
    · exact hvalue.hasLine hcat hmenus p hp
    · exact hrest.hasLine hcat hmenus (fun s hs ↦ hmenu s (List.mem_cons_of_mem _ hs)) p hp
  | _ :: _, _, .nil, h, _, _, _ => h.elim

end

/-- Every definition and every call in a script is that of a procedure. -/
theorem Chain.IsScript.hasLine (hcat : catalog.IsRegular) (hmenus : catalog.HasPlainMenus) :
    ∀ {c : Chain α}, c.IsScript catalog target → ∀ p ∈ c.parts, p.HasLine
  | .cons tag node slots rest, ⟨hhead, hrest⟩, p, hp => by
    rcases hhead with ⟨c, hmem, hkind, _, hnode, hslots⟩ | ⟨rfl, tag', name, -, rfl⟩
    · rcases List.mem_cons.1 hp with rfl | hp
      · intro hprocedure
        rcases hcat.eq_of_isProcedure hmem (by rw [hkind]; rfl) (hnode.opcode ▸ hprocedure)
          with rfl | rfl <;> cases hkind
      · rcases List.mem_append.1 hp with hp | hp
        · exact hslots.hasLine hcat hmenus (hmenus c hmem) p hp
        · exact hrest.hasLine hcat hmenus p hp
    · simp only [Chain.parts, Content.slot, Slots.parts, Sheet.prototype, List.append_nil,
        List.mem_cons, List.mem_append, List.not_mem_nil, or_false] at hp
      rcases hp with rfl | rfl | hp
      · exact fun _ ↦ ⟨.definition name, rfl⟩
      · exact fun hprocedure ↦ by cases hprocedure
      · exact hrest.hasLine hcat hmenus p hp

/-! ### Blocks along a chain -/

/-- The blocks of a chain one after the other, without those that they hold. -/
def Chain.spine : Chain α → List (Part α)
  | .nil => []
  | .cons tag node slots rest => ⟨tag, node, slots⟩ :: rest.spine

/-- The blocks along chains put together are those of both. -/
theorem Chain.spine_append : ∀ c d : Chain α, (c.append d).spine = c.spine ++ d.spine
  | .nil, _ => rfl
  | .cons _ _ _ rest, d => by rw [append, spine, spine, spine_append rest, List.cons_append]

/-- Forgetting tags commutes with taking the blocks along a chain. -/
theorem Chain.spine_erase (c : Chain α) : c.erase.spine = c.spine.map Part.erase := by
  cases c with
  | nil => rfl
  | cons tag node slots rest =>
    rw [erase, spine, spine, spine_erase rest]
    rfl

/-- These are the blocks from one on, along their successors. -/
inductive Target.Runs (t : Target) : Option BlockId → List Block → Prop where
  | stop : t.Runs none []
  | step {id : BlockId} {b : Block} {blocks : List Block} (found : t.blocks.find? id = some b)
      (rest : t.Runs b.next blocks) : t.Runs (some id) (b :: blocks)

/-- A held chain is a run of blocks. -/
theorem Chain.Held.exists_run {t : Target} : ∀ {c : Chain BlockId} {s : Setting},
    c.Held ⟨t.blocks, symbols⟩ s →
      ∃ blocks, t.Runs c.start blocks ∧
        List.Forall₂ (Part.IsBlock ⟨t.blocks, symbols⟩) c.spine blocks
  | .nil, _, _ => ⟨[], .stop, .nil⟩
  | .cons _ _ _ _, _, ⟨b, hb, hsaid, hnext, _, hslots, hrest⟩ => by
    obtain ⟨blocks, hruns, hblocks⟩ := hrest.exists_run
    exact ⟨b :: blocks, .step hb (hnext ▸ hruns), .cons ⟨hb, ⟨_, hsaid⟩, hslots⟩ hblocks⟩

/-- Held chains are runs of blocks, one for each. -/
theorem Chain.exists_runs {t : Target} : ∀ {cs : List (Chain BlockId)},
    (∀ c ∈ cs, ∃ s, c.Held ⟨t.blocks, symbols⟩ s) →
      ∃ runs, List.Forall₂ t.Runs (cs.map Chain.start) runs ∧
        List.Forall₂ (Part.IsBlock ⟨t.blocks, symbols⟩) (cs.flatMap Chain.spine) runs.flatten
  | [], _ => ⟨[], .nil, .nil⟩
  | c :: cs, h => by
    obtain ⟨s, hheld⟩ := h c List.mem_cons_self
    obtain ⟨blocks, hrun, hblocks⟩ := hheld.exists_run
    obtain ⟨runs, hruns, hmore⟩ := exists_runs fun c' hc' ↦ h c' (List.mem_cons_of_mem _ hc')
    exact ⟨blocks :: runs, .cons hrun hruns, List.rel_append hblocks hmore⟩

/-- Chains that are not empty have starts. -/
theorem Chain.map_some_start : ∀ {cs : List (Chain α)}, (∀ c ∈ cs, c ≠ .nil) →
    (cs.filterMap Chain.start).map some = cs.map Chain.start
  | [], _ => rfl
  | .nil :: _, h => absurd rfl (h _ List.mem_cons_self)
  | .cons tag _ _ _ :: cs, h => by
    have hrest := map_some_start fun c hc ↦ h c (List.mem_cons_of_mem _ hc)
    rw [List.map_cons, ← hrest]
    rfl

/-! ### Reading lines of procedures -/

/-- Whether a part defines or calls a procedure. -/
def Part.isProcedure (p : Part α) : Bool :=
  Opcode.isProcedure p.node.opcode

/-- A part and its block are both of a procedure or neither is. -/
theorem Part.IsBlock.isProcedure_eq {g : Graph} {p : Part BlockId} {b : Block} (h : p.IsBlock g b) :
    p.isProcedure = b.isProcedure := by
  obtain ⟨s, hsaid⟩ := h.said
  rw [Part.isProcedure, Block.isProcedure, hsaid.opcode]

namespace Sheet

/-- The definitions and calls of a sheet, in their order, are those of the lines. Nothing else asks
for a name, and no nesting block is open. -/
structure Mentions (σ : Sheet Unit) (lines : List ProcedureLine) : Prop where
  nested : σ.isNested = false
  parts : (σ.scripts.flatMap Chain.spine).filter Part.isProcedure = lines.map ProcedureLine.part
  asked : σ.asked = lines.map fun l ↦ (.procedures, l.signature)

namespace Mentions

variable {σ : Sheet Unit} {lines more : List ProcedureLine} {c : Tree}

/-- An empty sheet mentions no procedure. -/
theorem empty : ({} : Sheet Unit).Mentions [] :=
  ⟨rfl, rfl, rfl⟩

/-- A new script brings its own procedures after the others. -/
theorem start (h : σ.Mentions lines)
    (hparts : c.spine.filter Part.isProcedure = more.map ProcedureLine.part)
    (hasked : c.asked = more.map fun l ↦ (.procedures, l.signature)) :
    (σ.start c).Mentions (lines ++ more) := by
  have hscripts : (σ.start c).scripts = σ.scripts ++ [c] := rfl
  have hdeclared : (σ.start c).declared = σ.declared := rfl
  have hall := h.asked
  rw [Sheet.asked] at hall
  refine ⟨rfl, ?_, ?_⟩
  · rw [hscripts, List.flatMap_append, List.filter_append, h.parts, List.flatMap_singleton, hparts,
      List.map_append]
  · rw [Sheet.asked, hscripts, hdeclared, List.flatMap_append, ← List.append_assoc, hall,
      List.flatMap_singleton, hasked, List.map_append]

/-- A definition is one more line. -/
theorem define (h : σ.Mentions lines) (name : String) :
    (σ.start (definition () () name)).Mentions (lines ++ [.definition name]) :=
  h.start rfl rfl

/-- The script that starts by itself mentions no procedure. -/
theorem ensureScript (h : σ.Mentions lines) : σ.ensureScript.Mentions lines := by
  unfold Sheet.ensureScript
  split
  · exact h
  · have hstart : (σ.start (.cons () { opcode := Opcode.flagClicked } .nil .nil)).Mentions
        (lines ++ []) := h.start rfl rfl
    rwa [List.append_nil] at hstart

/-- A chain added to the open script brings its procedures after the others. -/
theorem extend (h : σ.Mentions lines) (hopen : σ.current.isSome = true)
    (hparts : c.spine.filter Part.isProcedure = more.map ProcedureLine.part)
    (hasked : c.asked = more.map fun l ↦ (.procedures, l.signature)) :
    (σ.extend c).Mentions (lines ++ more) := by
  obtain ⟨closed, current, declared⟩ := σ
  obtain ⟨⟨layers, d⟩, rfl⟩ := Option.isSome_iff_exists.1 hopen
  obtain ⟨hnested, hlines, hall⟩ := h
  obtain rfl : layers = [] := by simpa [isNested] using hnested
  have hscripts : (Sheet.extend ⟨closed, some ⟨[], d⟩, declared⟩ c).scripts =
      closed ++ [d.append c] := rfl
  have hbefore : (⟨closed, some ⟨[], d⟩, declared⟩ : Sheet Unit).scripts = closed ++ [d] := rfl
  rw [hbefore, List.flatMap_append, List.flatMap_singleton] at hlines
  rw [Sheet.asked, hbefore, List.flatMap_append, List.flatMap_singleton,
    ← List.append_assoc] at hall
  refine ⟨rfl, ?_, ?_⟩
  · rw [hscripts, List.flatMap_append, List.flatMap_singleton, Chain.spine_append,
      ← List.append_assoc, List.filter_append, hlines, hparts, List.map_append]
  · rw [Sheet.asked, hscripts, List.flatMap_append, List.flatMap_singleton, Chain.asked_append,
      ← List.append_assoc, ← List.append_assoc, List.map_append, ← hall, hasked]
    rfl

/-- A call is one more line. -/
theorem call (h : σ.Mentions lines) (name : String) :
    (σ.ensureScript.extend (.cons () { opcode := Opcode.call, procedure := some name } .nil
      .nil)).Mentions (lines ++ [.call name]) :=
  h.ensureScript.extend σ.isSome_ensureScript rfl rfl

end Mentions

/-- **Lines of procedures are read as definitions and calls**, in their order. -/
theorem takes_procedureLines (hcat : catalog.IsRegular) : ∀ {lines : List ProcedureLine}
    {texts : List String} {before : List ProcedureLine} {σ : Sheet Unit},
    List.Forall₂ (fun l text ↦ ∃ depth, text = Listing.indent depth (ProcedureLine.text l)) lines
      texts → σ.Mentions before →
        Takes catalog target texts σ fun τ ↦ τ.Mentions (before ++ lines.map (·.map reread))
  | [], [], before, σ, .nil, hσ => .nil (by rwa [List.map_nil, List.append_nil])
  | l :: lines, _ :: texts, before, σ, .cons ⟨depth, hdepth⟩ hlines, hσ => by
    subst hdepth
    have hfirst : Takes catalog target [Listing.indent depth l.text] σ fun τ ↦
        τ.Mentions (before ++ [l.map reread]) := by
      cases l with
      | definition name =>
        refine .single (Listing.indent_ne_empty depth (by simp [ProcedureLine.text])) fun n ↦
          ⟨_, line_define hcat name n depth hσ.nested, ?_⟩
        exact hσ.define (reread name)
      | call name =>
        refine .single (Listing.indent_ne_empty depth (by simp [ProcedureLine.text])) fun n ↦
          ⟨_, line_call hcat name n depth σ, ?_⟩
        exact hσ.call (reread name)
    have hrest := hfirst.append fun τ hτ ↦ takes_procedureLines hcat hlines hτ
    rwa [List.append_assoc] at hrest

end Sheet

/-! ### Targets -/

/-- These are the definitions and calls in the scripts of a target, in their order. -/
def Target.HasProcedureLines (t : Target) (lines : List ProcedureLine) : Prop :=
  ∃ runs, List.Forall₂ t.Runs (t.roots.map some) runs ∧
    (runs.flatten.filter Block.isProcedure).map t.procedureLine? = lines.map some

/-- The lines of the blocks are those of their parts, in the common spelling. -/
theorem map_procedureLine? {t : Target} : ∀ {parts : List (Part BlockId)} {blocks : List Block}
    {lines : List ProcedureLine}, List.Forall₂ (Part.IsBlock ⟨t.blocks, symbols⟩) parts blocks →
      parts.map Part.erase = lines.map ProcedureLine.part →
        blocks.map t.procedureLine? = lines.map fun l ↦ some (l.map (symbols.spell .procedures))
  | [], [], [], .nil, _ => rfl
  | p :: _, b :: _, l :: _, .cons hb hblocks, h => by
    obtain ⟨hp, hparts⟩ := List.cons.inj h
    rw [List.map_cons, List.map_cons, (hb.procedureLine?_eq hp).2,
      map_procedureLine? hblocks hparts]

namespace Sheet.Drafted

variable {σ : Sheet BlockId} {outer : List SymbolTables} {d : Draft} {t : Target}

/-- A definition or a call in a target has a procedure, in the spelling in which it is declared. -/
theorem exists_procedureLine (hcat : catalog.IsRegular) (hmenus : catalog.HasPlainMenus)
    (h : σ.Drafted [] d) (hscripts : ∀ c ∈ σ.erase.scripts, c.IsScript catalog target)
    (ht : t.blocks = d.blocks) {b : Block} (hb : b ∈ t.blocks.values)
    (hprocedure : b.isProcedure = true) : ∃ l, t.procedureLine? b = some l ∧
      ∃ entry ∈ d.symbols.own.get .procedures, entry.name = l.signature := by
  obtain ⟨id, hfind⟩ := Dict.exists_find?_of_mem_values hb
  obtain ⟨c, hc, hid⟩ := List.mem_flatMap.1 ((h.keys id).1 (by rw [← ht, hfind]; rfl))
  rw [Chain.tags_eq_parts] at hid
  obtain ⟨p, hp, rfl⟩ := List.mem_map.1 hid
  obtain ⟨i, hi⟩ := List.mem_iff_getElem?.1 hc
  have hheld := h.held i c hi
  rw [Draft.graph, ← ht] at hheld
  obtain ⟨b', hb'⟩ := hheld.part p hp
  obtain rfl := Option.some.inj (hfind.symm.trans hb'.found)
  obtain ⟨l, hl⟩ := (isScript_of_mem hscripts hc).hasLine hcat hmenus p hp
    (hb'.isProcedure_eq.trans hprocedure)
  obtain ⟨hsome, hline⟩ := hb'.procedureLine?_eq hl
  obtain ⟨symbol, hsymbol⟩ := Option.isSome_iff_exists.1 hsome
  obtain ⟨entry, hentry, hname, -⟩ := Symbols.mem_own_of_lookup? h.inherited hsymbol
  refine ⟨_, hline, entry, hentry, ?_⟩
  rw [ProcedureLine.signature_map, Symbols.spell, hsymbol, hname]
  rfl

/-- A target has the definitions and calls of the scripts that it was drafted from. -/
theorem hasProcedureLines (h : σ.Drafted outer d) {lines : List ProcedureLine}
    (hmentions : σ.erase.Mentions lines)
    (hhead : ∀ script ∈ σ.erase.scripts, ∃ node slots rest,
      script = .cons () node slots rest ∧ node.opcode ≠ Opcode.prototype)
    (kind : TargetKind) (name : String) :
    (d.finish kind name).target.HasProcedureLines
      (lines.map (·.map (d.symbols.spell .procedures))) := by
  have hheld : ∀ c ∈ σ.scripts, ∃ s, c.Held d.graph s := by
    intro c hc
    obtain ⟨i, hi⟩ := List.mem_iff_getElem?.1 hc
    exact ⟨_, h.held i c hi⟩
  obtain ⟨runs, hruns, hblocks⟩ := Chain.exists_runs (t := (d.finish kind name).target) hheld
  have hroots : (d.finish kind name).target.roots.map some = σ.scripts.map Chain.start := by
    rw [h.roots kind name fun id b hb htop ↦ h.opcode_ne_prototype hhead hb htop,
      Chain.map_some_start h.filled]
  have hfiltered := List.rel_filter (p := Part.isProcedure) (q := Block.isProcedure)
    (fun p b hb ↦ by simp only [hb.isProcedure_eq]) hblocks
  have hparts := hmentions.parts
  rw [erase_scripts, List.flatMap_map] at hparts
  simp only [Chain.spine_erase] at hparts
  rw [← List.map_flatMap, List.filter_map] at hparts
  refine ⟨runs, hroots ▸ hruns, ?_⟩
  rw [map_procedureLine? hfiltered hparts, List.map_map]
  rfl

end Sheet.Drafted

/-- Blocks that have lines of some kind are written as these lines. -/
theorem Target.exists_procedureLines {t : Target} {p : ProcedureLine → Prop}
    (hp : ∀ l, p l → Text.isProper l.signature = true) :
    ∀ {blocks : List Block} {texts : List String},
      (∀ b ∈ blocks, ∃ l, t.procedureLine? b = some l ∧ p l) →
        List.Forall₂ (t.Writes catalog) blocks texts →
          ∃ lines, blocks.map t.procedureLine? = lines.map some ∧ (∀ l ∈ lines, p l) ∧
            List.Forall₂ (fun l text ↦ ∃ depth, text = Listing.indent depth (ProcedureLine.text l))
              lines texts
  | [], [], _, .nil => ⟨[], rfl, List.forall_mem_nil _, .nil⟩
  | b :: _, _ :: _, h, .cons hwrites htexts => by
    obtain ⟨l, hl, hpl⟩ := h b List.mem_cons_self
    obtain ⟨lines, hlines, hplines, hmore⟩ := exists_procedureLines hp
      (fun b' hb' ↦ h b' (List.mem_cons_of_mem _ hb')) htexts
    exact ⟨l :: lines, by rw [List.map_cons, List.map_cons, hl, hlines],
      List.forall_mem_cons.2 ⟨hpl, hplines⟩, .cons (hwrites.exists_depth hl (hp l hpl)) hmore⟩

/-- The definitions and calls of a target have proper signatures, each in one spelling, and are
written as their lines. -/
theorem Script.exists_written_procedures {kind : TargetKind} {sources : List SourceLine}
    {built : TargetBuild} (hcat : catalog.IsRegular) (hmenus : catalog.HasPlainMenus)
    (h : build catalog kind sources = .ok built) {blocks : List Block} {texts : List String}
    (hblocks : ∀ b ∈ blocks, b ∈ built.target.blocks.values ∧ b.isProcedure = true)
    (htexts : List.Forall₂ (built.target.Writes catalog) blocks texts) :
    ∃ lines : List ProcedureLine, blocks.map built.target.procedureLine? = lines.map some ∧
      (∀ l ∈ lines, Text.isProper l.signature = true) ∧
      (∀ l ∈ lines, ∀ l' ∈ lines, Text.lower l.signature = Text.lower l'.signature →
        l.signature = l'.signature) ∧
      List.Forall₂ (fun l text ↦ ∃ depth, text = Listing.indent depth (ProcedureLine.text l))
        lines texts := by
  obtain ⟨σ, d, hread, hσ, rfl⟩ := drafted_of_build hcat.distinct h
  have hshaped := Sheet.isShaped_of_read hcat hread
  have hproper : ∀ l : ProcedureLine, (∃ entry ∈ d.symbols.own.get .procedures,
      entry.name = l.signature) → Text.isProper l.signature = true := by
    rintro l ⟨entry, hentry, hname⟩
    exact hname ▸ hσ.isProper_of_mem hshaped .procedures hentry
  obtain ⟨lines, hlines, hdeclared, hwritten⟩ := Target.exists_procedureLines hproper
    (fun b hb ↦ hσ.exists_procedureLine hcat hmenus hshaped.scripts rfl
      (hblocks b hb).1 (hblocks b hb).2) htexts
  refine ⟨lines, hlines, fun l hl ↦ hproper l (hdeclared l hl), fun l hl l' hl' hlower ↦ ?_,
    hwritten⟩
  obtain ⟨entry, hentry, hname⟩ := hdeclared l hl
  obtain ⟨entry', hentry', hname'⟩ := hdeclared l' hl'
  rw [← hname, ← hname'] at hlower ⊢
  rw [Symbols.eq_of_lower_eq (hσ.answers.distinct .procedures) hentry hentry' hlower]

/-- The lines of definitions and calls build a target that has them in the same order, as they are
read again and in a common spelling. -/
theorem Script.build_procedureLines (hcat : catalog.IsRegular) (kind : TargetKind)
    {again : List SourceLine} {lines : List ProcedureLine}
    (htexts : List.Forall₂ (fun l text ↦ ∃ depth, text =
      Listing.indent depth (ProcedureLine.text l))
      lines (again.map SourceLine.text)) :
    ∃ (spell : String → String) (rebuilt : TargetBuild), build catalog kind again = .ok rebuilt ∧
      rebuilt.target.HasProcedureLines (lines.map (·.map (spell ∘ Sheet.reread))) ∧
      IsSpelling spell (lines.map (Sheet.reread ∘ ProcedureLine.signature)) := by
  have htakes : Sheet.Takes catalog kind (again.map SourceLine.text) {} _ :=
    Sheet.takes_procedureLines hcat htexts .empty
  obtain ⟨τ, hread, hmentions⟩ := htakes.read (fun τ hτ ↦ hτ.nested) rfl
  obtain ⟨σ, d, rfl, hσ, hbuild⟩ := build_of_read hcat.distinct hread
  have hshaped := Sheet.isShaped_of_read hcat hread
  refine ⟨d.symbols.spell .procedures, _, hbuild, ?_, ?_⟩
  · have hlines := hσ.hasProcedureLines hmentions
      (fun c hc ↦ (hshaped.scripts c hc).head hcat) kind (targetName kind)
    rw [List.nil_append, List.map_map] at hlines
    simpa only [Function.comp_def, ProcedureLine.map_map] using hlines
  · have hasked := hmentions.asked
    rw [Sheet.asked_erase, List.nil_append, List.map_map] at hasked
    refine hσ.answers.isSpelling hσ.inherited fun name ↦ ?_
    rw [hasked]
    simp

/-- **What becomes of the procedures of a target when their lines are read again.** The lines that
are written for definitions and calls always build a target, which defines and calls in the same
order what the lines are read as, in a common spelling. These are the procedures that the lines were
written for exactly if all their signatures are plain. -/
theorem Script.rebuilt_procedures {kind : TargetKind} {sources again : List SourceLine}
    {built : TargetBuild} (h : build .builtin kind sources = .ok built) (kind' : TargetKind)
    {blocks : List Block}
    (hblocks : ∀ b ∈ blocks, b ∈ built.target.blocks.values ∧ b.isProcedure = true)
    (hagain : List.Forall₂ (built.target.Writes .builtin) blocks (again.map SourceLine.text)) :
    ∃ (lines : List ProcedureLine) (spell : String → String) (rebuilt : TargetBuild),
      blocks.map built.target.procedureLine? = lines.map some ∧
      build .builtin kind' again = .ok rebuilt ∧
      rebuilt.target.HasProcedureLines (lines.map (·.map (spell ∘ Sheet.reread))) ∧
      IsSpelling spell (lines.map (Sheet.reread ∘ ProcedureLine.signature)) ∧
      (lines.map (·.map (spell ∘ Sheet.reread)) = lines ↔
        ∀ l ∈ lines, Signature.IsPlain l.signature) := by
  have hcat := Catalog.builtin_isRegular
  obtain ⟨lines, hlines, hproper, hdistinct, htexts⟩ :=
    exists_written_procedures hcat Catalog.builtin_hasPlainMenus h hblocks hagain
  obtain ⟨spell, rebuilt, hbuild, hprocedures, hspell⟩ := build_procedureLines hcat kind' htexts
  refine ⟨lines, spell, rebuilt, hlines, hbuild, hprocedures, hspell, ?_⟩
  rw [← List.map_map] at hspell
  rw [ProcedureLine.map_eq_self_iff, ← List.forall_mem_map]
  refine hspell.reread_iff (List.forall_mem_map.2 hproper) fun s hs s' hs' hlower ↦ ?_
  obtain ⟨l, hl, rfl⟩ := List.mem_map.1 hs
  obtain ⟨l', hl', rfl⟩ := List.mem_map.1 hs'
  exact hdistinct l hl l' hl' hlower

/-- Two procedures whose signatures differ in their spaces, and a call of the first of them. -/
def spacedLines : List SourceLine :=
  [⟨1, "define \"a  b\""⟩, ⟨2, "define \"a b\""⟩, ⟨3, "call \"a  b\""⟩]

/-- What is written for these procedures. -/
def spacedListing : List SourceLine :=
  [⟨1, "define a  b"⟩, ⟨2, "define a b"⟩, ⟨3, "call a  b"⟩]

/-- A target with two procedures whose signatures differ in their spaces reads back with one. -/
theorem Script.rebuilt_procedures_spaced : ∃ built blocks,
    build .builtin .sprite spacedLines = .ok built ∧
    (∀ b ∈ blocks, b ∈ built.target.blocks.values ∧ b.isProcedure = true) ∧
    List.Forall₂ (built.target.Writes .builtin) blocks (spacedListing.map SourceLine.text) ∧
    blocks.map built.target.procedureLine? =
      [some (.definition "a  b"), some (.definition "a b"), some (.call "a  b")] ∧
    ∃ rebuilt, build .builtin .sprite spacedListing = .ok rebuilt ∧
      rebuilt.target.HasProcedureLines [.definition "a b", .definition "a b", .call "a b"] := by
  have hfacts : (build .builtin .sprite spacedLines).toOption.map (fun built ↦
      let blocks := built.target.blocks.values.filter Block.isProcedure
      (blocks.map built.target.procedureLine?, blocks.map fun b ↦
        ((Listing.statement .builtin built.target (fun _ ↦ pure "") (fun _ _ ↦ pure []) b 0).run
          {}).1)) =
      some ([some (.definition "a  b"), some (.definition "a b"), some (.call "a  b")],
        [["define a  b"], ["define a b"], ["call a  b"]]) := by
    decide +kernel
  cases hbuild : build .builtin .sprite spacedLines with
  | error e =>
    rw [hbuild] at hfacts
    cases hfacts
  | ok built =>
    rw [hbuild] at hfacts
    obtain ⟨hprocedures, htexts⟩ := Prod.mk.inj (Option.some.inj hfacts)
    have hblocks : ∀ b ∈ built.target.blocks.values.filter Block.isProcedure,
        b ∈ built.target.blocks.values ∧ b.isProcedure = true := fun b hb ↦ List.mem_filter.1 hb
    have hwrites : List.Forall₂ (built.target.Writes .builtin)
        (built.target.blocks.values.filter Block.isProcedure)
        (spacedListing.map SourceLine.text) := by
      have heq : List.Forall₂ (· = ·) _ (["define a  b", "define a b", "call a  b"].map ([·])) :=
        List.forall₂_eq_eq_eq ▸ htexts
      rw [List.forall₂_map_left_iff, List.forall₂_map_right_iff] at heq
      exact heq.imp fun b text h ↦ ⟨_, _, _, _, h⟩
    refine ⟨built, _, rfl, hblocks, hwrites, hprocedures, ?_⟩
    obtain ⟨lines, spell, rebuilt, hlines, hrebuilt, hnamed, hspell, -⟩ :=
      rebuilt_procedures hbuild .sprite hblocks hwrites
    obtain rfl : lines = [.definition "a  b", .definition "a b", .call "a  b"] :=
      List.map_injective_iff.2 (fun _ _ ↦ Option.some.inj) (hlines.symm.trans hprocedures)
    have hwide : Sheet.reread "a  b" = "a b" := by decide
    have hnarrow : Sheet.reread "a b" = "a b" := by decide
    have hsame : spell "a b" = "a b" := by
      simpa [ProcedureLine.signature, hwide, hnarrow] using
        hspell.mem "a b" (by simp [ProcedureLine.signature, hwide])
    refine ⟨rebuilt, hrebuilt, ?_⟩
    simpa [ProcedureLine.map, hwide, hnarrow, hsame] using hnamed

end BlockScript
