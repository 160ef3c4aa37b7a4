import BlockScript.Proofs.Accounting
import BlockScript.Proofs.Newlines

/-!
# What a listing covers

A listing of a program that was made from a source text leaves nothing out. A block of a script is
either entered by the walk or a shadow (`Chain.IsScript.entered_or_shadow`), and the lines account
for every block that is entered. So every block that is no shadow is written once, a statement as
the header of a line and a value inside the line of its owner (`Listing.IsComplete`). The text of
the listing consists of these lines, the declarations and the frame of the sections
(`Listing.Covers`, `Listing.isComplete_of_ofText`).
-/

namespace BlockScript

variable {catalog : Catalog} {target : TargetKind} {symbols : Symbols}

/-! ### Shadows -/

/-- The block is one of these, or a shadow. -/
def Graph.IsShadowOr (g : Graph) (ids : List BlockId) (id : BlockId) : Prop :=
  id ∈ ids ∨ ∃ b, g.blocks.find? id = some b ∧ b.shadow = true

theorem Graph.IsShadowOr.mono {g : Graph} {ids others : List BlockId} {id : BlockId}
    (h : g.IsShadowOr ids id) (hids : ∀ id ∈ ids, id ∈ others) : g.IsShadowOr others id :=
  h.imp_left (hids id)

/-- The shadow of an input is a single block. -/
theorem InputSpec.Admits.entered_or_shadow {spec : InputSpec} {compares : Bool}
    {constant : Option Literal} {value shadow : Chain BlockId}
    (h : spec.Admits compares constant value shadow) {g : Graph} {s : Setting}
    (hs : s.shadow = true) (hheld : shadow.Held g s) (ids : List BlockId) :
    ∀ id ∈ shadow.tags, g.IsShadowOr ids id := by
  by_cases hmenu : spec.kind = .menu
  · simp only [InputSpec.Admits, hmenu] at h
    obtain ⟨-, tag, opcode, field, -, rfl, -⟩ := h
    obtain ⟨b, hb, hsaid, -⟩ := hheld
    intro id hid
    obtain rfl := List.mem_singleton.1 hid
    exact .inr ⟨b, hb, hsaid.shadow.trans hs⟩
  · obtain rfl := h.shadow_eq_nil hmenu
    exact List.forall_mem_nil _

section

variable {g : Graph}

/-- The blocks of a chain are its first one, those in its slots and those after it. -/
theorem Chain.entered_or_shadow_cons {tag : BlockId} {node : Node} {slots : Slots BlockId}
    {rest : Chain BlockId} (hslots : ∀ id ∈ slots.tags, g.IsShadowOr slots.entered id)
    (hrest : ∀ id ∈ rest.tags, g.IsShadowOr rest.entered id) :
    ∀ id ∈ (Chain.cons tag node slots rest).tags,
      g.IsShadowOr (Chain.cons tag node slots rest).entered id := by
  intro id hid
  rw [Chain.tags, List.mem_cons, List.mem_append] at hid
  rw [Chain.entered]
  rcases hid with rfl | hid | hid
  · exact .inl List.mem_cons_self
  · exact (hslots id hid).mono fun _ h ↦ List.mem_cons_of_mem _ (List.mem_append_left _ h)
  · exact (hrest id hid).mono fun _ h ↦ List.mem_cons_of_mem _ (List.mem_append_right _ h)

theorem Slots.entered_or_shadow_cons {input : String} {constant : Option Literal}
    {value shadow : Chain BlockId} {rest : Slots BlockId}
    (hshadow : ∀ ids, ∀ id ∈ shadow.tags, g.IsShadowOr ids id)
    (hvalue : ∀ id ∈ value.tags, g.IsShadowOr value.entered id)
    (hrest : ∀ id ∈ rest.tags, g.IsShadowOr rest.entered id) :
    ∀ id ∈ (Slots.cons input constant value shadow rest).tags,
      g.IsShadowOr (Slots.cons input constant value shadow rest).entered id := by
  intro id hid
  rw [Slots.tags, List.mem_append, List.mem_append] at hid
  rcases hid with hid | hid | hid
  · exact hshadow _ id hid
  · exact (hvalue id hid).mono fun _ ↦ List.mem_append_left _
  · exact (hrest id hid).mono fun _ ↦ List.mem_append_right _

mutual

/-- A block of a held value is entered or a shadow. -/
theorem Chain.IsValue.entered_or_shadow : ∀ {c : Chain BlockId} {s : Setting},
    c.IsValue catalog target → c.Held g s → ∀ id ∈ c.tags, g.IsShadowOr c.entered id
  | .nil, _, _, _ => List.forall_mem_nil _
  | .cons .., _, ⟨rfl, _, _, _, _, _, hfill⟩, ⟨_, _, _, _, _, hslots, _⟩ =>
    Chain.entered_or_shadow_cons (hfill.entered_or_shadow hslots) (List.forall_mem_nil _)

/-- A block of a held chain of statements is entered or a shadow. -/
theorem Chain.IsBody.entered_or_shadow : ∀ {c : Chain BlockId} {s : Setting},
    c.IsBody catalog target → c.Held g s → ∀ id ∈ c.tags, g.IsShadowOr c.entered id
  | .nil, _, _, _ => List.forall_mem_nil _
  | .cons .., _, ⟨⟨_, _, _, _, _, hfill⟩, hbody⟩, ⟨_, _, _, _, _, hslots, hrest⟩ =>
    Chain.entered_or_shadow_cons (hfill.entered_or_shadow hslots) (hbody.entered_or_shadow hrest)

/-- A block in held slots is entered or a shadow. -/
theorem Slots.Fill.entered_or_shadow {compares : Bool} {owner : BlockId} {inputs : Dict Slot} :
    ∀ {specs : List InputSpec} {names : List String} {slots : Slots BlockId},
    slots.Fill catalog target compares specs names → slots.Held g owner inputs →
      ∀ id ∈ slots.tags, g.IsShadowOr slots.entered id
  | [], _, .nil, _, _ => List.forall_mem_nil _
  | [], _, .cons .., ⟨⟨_, rfl, _, _⟩, hbody, hrest⟩, ⟨_, hvalue, _, hothers⟩ =>
    Slots.entered_or_shadow_cons (fun _ ↦ List.forall_mem_nil _) (hbody.entered_or_shadow hvalue)
      (hrest.entered_or_shadow hothers)
  | _ :: _, _, .cons .., ⟨⟨_, hadmits⟩, hvalue, hrest⟩, ⟨_, hheld, hshadow, hothers⟩ =>
    Slots.entered_or_shadow_cons (hadmits.entered_or_shadow rfl hshadow)
      (hvalue.entered_or_shadow hheld) (hrest.entered_or_shadow hothers)
  | _ :: _, _, .nil, h, _ => h.elim

end

/-- A block of a held script is entered or a shadow. -/
theorem Chain.IsScript.entered_or_shadow : ∀ {c : Chain BlockId} {s : Setting},
    c.IsScript catalog target → c.Held g s → ∀ id ∈ c.tags, g.IsShadowOr c.entered id
  | .cons _ _ slots _, _, ⟨hhead, hbody⟩, ⟨_, _, _, _, _, hslots, hrest⟩ => by
    refine Chain.entered_or_shadow_cons ?_ (hbody.entered_or_shadow hrest)
    rcases hhead with ⟨_, _, _, _, _, hfill⟩ | ⟨_, tag, name, _, rfl⟩
    · exact hfill.entered_or_shadow hslots
    · -- the only block in the head of a procedure is its prototype
      obtain ⟨-, -, ⟨b, hb, hsaid, -⟩, -⟩ := hslots
      intro id hid
      obtain rfl := List.mem_singleton.1 hid
      exact .inr ⟨b, hb, hsaid.shadow⟩

end

/-! ### Targets -/

namespace Listing

variable {t : Target} {scripts : List (List Line)}

/-- **The lines of the scripts leave nothing out**: every block of the target but the shadows is
written once, a statement as the header of a line and a value inside the line of its owner. -/
structure IsComplete (catalog : Catalog) (t : Target) (scripts : List (List Line)) : Prop where
  /-- A walk over the target writes these lines, enters the blocks of the lines in their order, and
  remarks on nothing. -/
  walk : (Listing.scripts catalog t).run {} =
    (scripts.map (·.map Line.text), { visited := scripts.flatten.flatMap Line.blocks })
  /-- The listing of the target consists of its declarations and these lines. -/
  listing : targetLines catalog t = (dropTrailingBlank
    ((scripts.map (·.map Line.text)).foldl appendScript (declarationLines t)), [])
  /-- Each of them is a single line of the text. -/
  inline : ∀ line ∈ scripts.flatten, Text.IsInline line.text
  /-- Each of them is as the writer writes it, the values inside the line of their owner. -/
  written : ∀ line ∈ scripts.flatten, line.IsWritten catalog t
  /-- Every block but a shadow is a statement or a value. -/
  kinds : ∀ id b, t.blocks.find? id = some b → b.shadow = false →
    b.IsOf catalog CommandKind.hasLine ∨ b.IsOf catalog CommandKind.isExpression
  /-- Shadows are not written, all other blocks are written once. -/
  once : ∀ id b, t.blocks.find? id = some b →
    (scripts.flatten.flatMap Line.blocks).count id = if b.shadow then 0 else 1
  /-- Each statement has one line. -/
  header : ∀ id b, t.blocks.find? id = some b → b.shadow = false →
    b.IsOf catalog CommandKind.hasLine → (scripts.flatten.filterMap Line.block?).count id = 1
  /-- Each value is in one line. -/
  value : ∀ id b, t.blocks.find? id = some b → b.shadow = false →
    b.IsOf catalog CommandKind.isExpression → (scripts.flatten.flatMap Line.values).count id = 1

/-- A block that a line writes has the line or is a value in it. -/
theorem Line.IsWritten.exists_block {line : Line} (h : line.IsWritten catalog t) {id : BlockId}
    (hid : id ∈ line.blocks) : ∃ b, t.blocks.find? id = some b ∧ b.shadow = false ∧
      (line.block? = some id ∧ b.IsOf catalog CommandKind.hasLine ∨
        id ∈ line.values ∧ b.IsOf catalog CommandKind.isExpression) := by
  cases line with
  | header text block values =>
    obtain ⟨b, hb, hshadow, hkind, -, hvalues⟩ := h
    rcases List.mem_cons.1 hid with rfl | hid
    · exact ⟨b, hb, hshadow, .inl ⟨rfl, hkind⟩⟩
    · obtain ⟨b, hb, hshadow, hkind, -⟩ := (hvalues id hid).value
      exact ⟨b, hb, hshadow, .inr ⟨hid, hkind⟩⟩
  | word => exact absurd hid List.not_mem_nil

/-- Written lines that have each block once leave nothing out. -/
theorem IsComplete.of_nodup (hcat : catalog.IsRegular)
    (hwalk : (Listing.scripts catalog t).run {} =
      (scripts.map (·.map Line.text), { visited := scripts.flatten.flatMap Line.blocks }))
    (hinline : ∀ line ∈ scripts.flatten, Text.IsInline line.text)
    (hwritten : ∀ line ∈ scripts.flatten, line.IsWritten catalog t)
    (hnodup : (scripts.flatten.flatMap Line.blocks).Nodup)
    (hall : ∀ id b, t.blocks.find? id = some b → b.shadow = false →
      id ∈ scripts.flatten.flatMap Line.blocks) : IsComplete catalog t scripts := by
  -- each block has its place: it has a line of its own, or it is a value in one
  have hplace : ∀ id b, t.blocks.find? id = some b → b.shadow = false → ∃ line ∈ scripts.flatten,
      line.block? = some id ∧ b.IsOf catalog CommandKind.hasLine ∨
        id ∈ line.values ∧ b.IsOf catalog CommandKind.isExpression := by
    intro id b hb hshadow
    obtain ⟨line, hline, hid⟩ := List.mem_flatMap.1 (hall id b hb hshadow)
    obtain ⟨b', hb', -, hcase⟩ := (hwritten line hline).exists_block hid
    obtain rfl := Option.some.inj (hb.symm.trans hb')
    exact ⟨line, hline, hcase⟩
  refine ⟨hwalk, ?_, hinline, hwritten, ?_, ?_, ?_, ?_⟩
  · rw [targetLines, hwalk]
    rfl
  · intro id b hb hshadow
    obtain ⟨line, -, hcase⟩ := hplace id b hb hshadow
    exact hcase.imp And.right And.right
  · intro id b hb
    cases hshadow : b.shadow with
    | false => exact List.count_eq_one_of_mem hnodup (hall id b hb hshadow)
    | true =>
      -- what a written line mentions is no shadow
      refine List.count_eq_zero.2 fun hid ↦ ?_
      obtain ⟨line, hline, hid⟩ := List.mem_flatMap.1 hid
      obtain ⟨b', hb', hshadow', -⟩ := (hwritten line hline).exists_block hid
      obtain rfl := Option.some.inj (hb.symm.trans hb')
      cases hshadow.symm.trans hshadow'
  · intro id b hb hshadow hkind
    obtain ⟨line, hline, ⟨hblock, -⟩ | ⟨-, hother⟩⟩ := hplace id b hb hshadow
    · refine List.count_eq_one_of_mem ?_ (List.mem_filterMap.2 ⟨line, hline, hblock⟩)
      rw [List.filterMap_eq_flatMap_toList]
      exact hnodup.sublist (List.Sublist.flatMap_right _ fun _ _ ↦ List.sublist_append_left _ _)
    · exact absurd hother (hkind.not_isExpression hcat)
  · intro id b hb hshadow hkind
    obtain ⟨line, hline, ⟨-, hother⟩ | ⟨hid, -⟩⟩ := hplace id b hb hshadow
    · exact absurd hkind (hother.not_isExpression hcat)
    · refine List.count_eq_one_of_mem ?_ (List.mem_flatMap.2 ⟨line, hline, hid⟩)
      exact hnodup.sublist (List.Sublist.flatMap_right _ fun _ _ ↦ List.sublist_append_right _ _)

theorem exists_lines {out : Chain BlockId → List String} : ∀ {cs : List (Chain BlockId)},
    (∀ c ∈ cs, IsAccounted catalog t (out c) c.entered) → ∃ scripts : List (List Line),
      scripts.map (·.map Line.text) = cs.map out ∧
      scripts.flatten.flatMap Line.blocks = cs.flatMap Chain.entered ∧
      ∀ line ∈ scripts.flatten, line.IsWritten catalog t
  | [], _ => ⟨[], rfl, rfl, List.forall_mem_nil _⟩
  | c :: cs, h => by
    obtain ⟨lines, htexts, hblocks, hlines⟩ := h c List.mem_cons_self
    obtain ⟨scripts, hothers, hmore, hscripts⟩ := exists_lines fun c' hc' ↦
      h c' (List.mem_cons_of_mem _ hc')
    refine ⟨lines :: scripts, ?_, ?_, fun line hline ↦ ?_⟩
    · rw [List.map_cons, List.map_cons, htexts, hothers]
    · rw [List.flatten_cons, List.flatMap_append, List.flatMap_cons, hblocks, hmore]
    · exact (List.mem_append.1 hline).elim (hlines line) (hscripts line)

end Listing

namespace Sheet.Drafted

variable {σ : Sheet BlockId} {outer : List SymbolTables} {d : Draft} {t : Target}

/-- A block of the target that is no shadow is entered by a walk. -/
theorem mem_entered (h : σ.Drafted outer d)
    (hscripts : ∀ c ∈ σ.erase.scripts, c.IsScript catalog target) {id : BlockId} {b : Block}
    (hb : d.blocks.find? id = some b) (hshadow : b.shadow = false) :
    id ∈ σ.scripts.flatMap Chain.entered := by
  obtain ⟨c, hc, hid⟩ := List.mem_flatMap.1 ((h.keys id).1 (by rw [hb]; rfl))
  obtain ⟨i, hi⟩ := List.mem_iff_getElem?.1 hc
  rcases (isScript_of_mem hscripts hc).entered_or_shadow (h.held i c hi) id hid with
    hentered | ⟨b', hb', hshadow'⟩
  · exact List.mem_flatMap.2 ⟨c, hc, hentered⟩
  · obtain rfl := Option.some.inj (hb.symm.trans hb')
    cases hshadow.symm.trans hshadow'

/-- **A target that was drafted from scripts is listed completely.** -/
theorem exists_isComplete (hcat : catalog.IsRegular) (h : σ.Drafted outer d)
    (hscripts : ∀ c ∈ σ.erase.scripts, c.IsScript catalog target) (ht : t.blocks = d.blocks)
    (hinline : ∀ script ∈ ((Listing.scripts catalog t).run {}).1, ∀ line ∈ script,
      Text.IsInline line) : ∃ scripts, Listing.IsComplete catalog t scripts := by
  have haccounted : ∀ c ∈ σ.scripts,
      Listing.IsAccounted catalog t (c.lines catalog d.symbols 0) c.entered := by
    intro c hc
    obtain ⟨i, hi⟩ := List.mem_iff_getElem?.1 hc
    have hheld := h.held i c hi
    -- the blocks of a script differ and are all in the target, so the walk has room for them
    have hroom : Listing.HasRoom t c.entered :=
      ⟨(List.nodup_flatMap.1 h.nodup_entered).1 c hc, ht ▸ h.length_entered_le hc⟩
    rw [Draft.graph, ← ht] at hheld
    exact Listing.script_isAccounted hcat (isScript_of_mem hscripts hc) rfl hheld hroom 0
  obtain ⟨scripts, htexts, hblocks, hwritten⟩ := Listing.exists_lines haccounted
  have hwalk := h.scripts_write hcat hscripts ht {} h.nodup_entered
  rw [← htexts, ← hblocks] at hwalk
  refine ⟨scripts, .of_nodup hcat hwalk ?_ hwritten (hblocks ▸ h.nodup_entered) ?_⟩
  · intro line hline
    obtain ⟨script, hscript, hin⟩ := List.mem_flatten.1 hline
    rw [hwalk] at hinline
    exact hinline _ (List.mem_map_of_mem hscript) _ (List.mem_map_of_mem hin)
  · intro id b hb hshadow
    rw [hblocks]
    exact h.mem_entered hscripts (ht ▸ hb) hshadow

end Sheet.Drafted

/-! ### Programs -/

/-- A draft is that of the scripts that its lines are read as. -/
theorem Script.exists_sheet (hcat : catalog.IsRegular) {kind : TargetKind}
    {sources : List SourceLine} {ids : IdSource} {outer : List SymbolTables} {d : Draft}
    (h : draft catalog kind sources { ids, symbols := ⟨{}, outer⟩ } = .ok d) :
    ∃ σ : Sheet BlockId, σ.Drafted outer d ∧ ∀ c ∈ σ.erase.scripts, c.IsScript catalog kind := by
  -- reading the lines goes along with making the draft, and fails where it fails
  have hfollows := Build.lines_follows hcat.distinct kind sources ids outer
  generalize hread : Sheet.read catalog kind sources = result at hfollows
  unfold draft at h
  cases hfollows with
  | fails run =>
    rw [run] at h
    cases h
  | yields run fits =>
    rw [run] at h
    obtain rfl := Except.ok.inj h
    obtain ⟨σ, rfl, hσ⟩ := fits
    exact ⟨σ, hσ, (Sheet.isShaped_of_read hcat hread).scripts⟩

/-- Every target of a program is drafted from scripts. -/
theorem Compile.exists_sheet (hcat : catalog.IsRegular) {outline : Outline} {compiled : Compiled}
    (h : ofOutline catalog outline = .ok compiled) {t : Target}
    (ht : t ∈ compiled.program.targets) :
    ∃ (kind : TargetKind) (outer : List SymbolTables) (d : Draft) (σ : Sheet BlockId),
      t.blocks = d.blocks ∧ σ.Drafted outer d ∧ ∀ c ∈ σ.erase.scripts, c.IsScript catalog kind := by
  obtain ⟨d, built, hdraft, hbuilt, hsprites, hstage⟩ := ofOutline_eq_ok h
  rcases List.mem_cons.1 ht with rfl | ht
  · have hempty : Script.draft catalog .stage outline.stage { ids := {}, symbols := ⟨{}, []⟩ } =
        .ok d := hdraft
    obtain ⟨σ, hσ, hscripts⟩ := Script.exists_sheet hcat hempty
    exact ⟨.stage, [], d, σ, by rw [hstage]; rfl, hσ, hscripts⟩
  · rw [hsprites] at ht
    obtain ⟨b, hb, rfl⟩ := List.mem_map.1 ht
    obtain ⟨i, hi, rfl⟩ := List.getElem_of_mem hb
    obtain ⟨hlength, hmakes⟩ := List.forall₂_iff_get.1 (makes_of_sprites hbuilt)
    obtain ⟨-, first, e, hdraft, hfinish⟩ := hmakes i (hlength ▸ hi) hi
    obtain ⟨σ, hσ, hscripts⟩ := Script.exists_sheet hcat hdraft
    refine ⟨.sprite, _, e, σ, ?_, hσ, hscripts⟩
    exact congrArg (fun b ↦ b.target.blocks) hfinish

namespace Listing

/-! ### Texts -/

section

variable {t : Target} {scripts : List (List Line)}

/-- **The listing leaves nothing out of the program.** -/
structure Covers (catalog : Catalog) (listing : Listing) (p : Program) : Prop where
  /-- Nothing is remarked on: no operation code is unknown and no chain is cyclic. -/
  warnings : listing.warnings = []
  /-- The lines of the text are those of the banner, of the section of the stage and of the sections
  of the sprites, each section around the lines of its target. -/
  lines : listing.textLines = banner ++ stageSection (targetLines catalog p.stage).1 ++
    p.sprites.flatMap fun sprite ↦ spriteSection sprite (targetLines catalog sprite).1
  /-- Each target has lines that leave none of its blocks out, and one after the other the text
  holds these lines of all targets, one step further in. -/
  targets : ∃ scripts, List.Forall₂ (IsComplete catalog) p.targets scripts ∧
    (scripts.flatten.flatten.map fun line ↦ indent 1 line.text).Sublist listing.textLines

/-- The lines that are not empty stand in a section, one step further in. -/
theorem sublist_inSection {lines more : List String} (h : lines.Sublist more)
    (hne : ∀ line ∈ lines, line ≠ "") : (lines.map (indent 1)).Sublist (inSection more) := by
  have hindent : lines.map (indent 1) = inSection lines :=
    List.map_congr_left fun line hline ↦ by rw [if_neg (by simpa using hne line hline)]
  rw [hindent]
  exact h.map _

theorem inSection_sublist_stageSection (lines : List String) :
    (inSection lines).Sublist (stageSection lines) := by
  unfold stageSection
  split
  · next hempty => rw [List.isEmpty_iff.1 hempty]; exact List.Sublist.refl _
  · exact (List.sublist_append_right _ _).trans (List.sublist_append_left _ _)

theorem inSection_sublist_spriteSection (sprite : Target) (lines : List String) :
    (inSection lines).Sublist (spriteSection sprite lines) := by
  have hbody : (inSection lines).Sublist
      (if lines.isEmpty then [indent 1 "# no scripts imported for this sprite"]
        else inSection lines) := by
    split
    · next hempty => rw [List.isEmpty_iff.1 hempty]; exact List.nil_sublist _
    · exact List.Sublist.refl _
  exact (hbody.trans (List.sublist_append_right _ _)).trans (List.sublist_append_left _ _)

/-- The lines of the scripts are among the lines of the target. -/
theorem IsComplete.sublist_targetLines (h : IsComplete catalog t scripts)
    (hne : ∀ line ∈ scripts.flatten, line.text ≠ "") :
    (scripts.flatten.map Line.text).Sublist (targetLines catalog t).1 := by
  have hlines : inked (scripts.flatten.map Line.text) = scripts.flatten.map Line.text :=
    List.filter_eq_self.2 (List.forall_mem_map.2 fun line hline ↦ by simpa using hne line hline)
  have hinked : inked (targetLines catalog t).1 =
      inked (declarationLines t) ++ scripts.flatten.map Line.text := by
    rw [h.listing, inked_dropTrailingBlank, inked_foldl_appendScript, inked_append,
      ← List.map_flatten, hlines]
  have hsub : (scripts.flatten.map Line.text).Sublist (inked (targetLines catalog t).1) := by
    rw [hinked]
    exact List.sublist_append_right _ _
  exact hsub.trans List.filter_sublist

end

/-- What stands in the parts of a text stands in the text. -/
theorem exists_forall₂_isComplete {part : Target → List String} : ∀ {targets : List Target},
    (∀ t ∈ targets, ∃ scripts, IsComplete catalog t scripts ∧
      (scripts.flatten.map fun line ↦ indent 1 line.text).Sublist (part t)) →
    ∃ all, List.Forall₂ (IsComplete catalog) targets all ∧
      (all.flatten.flatten.map fun line ↦ indent 1 line.text).Sublist (targets.flatMap part)
  | [], _ => ⟨[], .nil, List.Sublist.refl _⟩
  | t :: targets, h => by
    obtain ⟨scripts, hscripts, hfirst⟩ := h t List.mem_cons_self
    obtain ⟨all, hall, hrest⟩ := exists_forall₂_isComplete fun u hu ↦
      h u (List.mem_cons_of_mem _ hu)
    refine ⟨scripts :: all, .cons hscripts hall, ?_⟩
    rw [List.flatten_cons, List.flatten_append, List.map_append, List.flatMap_cons]
    exact hfirst.append hrest

/-- Each target of a program that was made from a source text has lines that leave none of its
blocks out, and they stand in its section. -/
theorem exists_isComplete_of_ofText {text : String} {compiled : Compiled}
    (h : Compile.ofText .builtin text = .ok compiled) {t : Target}
    (ht : t ∈ compiled.program.targets) : ∃ scripts, IsComplete .builtin t scripts ∧
      (scripts.flatten.map fun line ↦ indent 1 line.text).Sublist
        (inSection (targetLines .builtin t).1) := by
  have hinline := Compile.isInline_of_ofText h t ht
  obtain ⟨outline, -, hmade⟩ := Reading.bind_eq_ok.1 h
  obtain ⟨kind, outer, d, σ, hblocks, hσ, hscripts⟩ :=
    Compile.exists_sheet Catalog.builtin_isRegular hmade ht
  have hlines := isLineOf_of_mem_scripts Text.isLineKind_isTidy Catalog.builtin_isRegular
    Catalog.builtin_isInline hinline.shows
  obtain ⟨scripts, hcomplete⟩ := hσ.exists_isComplete Catalog.builtin_isRegular hscripts hblocks
    fun script hscript line hline ↦ (IsLine.isTidy (hlines script hscript line hline)).inline
  -- a line with text on it is not dropped with the blank lines at the end
  have hne : ∀ line ∈ scripts.flatten, line.text ≠ "" := by
    intro line hline
    obtain ⟨script, hscript, hmem⟩ := List.mem_flatten.1 hline
    rw [hcomplete.walk] at hlines
    exact (hlines _ (List.mem_map_of_mem hscript) _ (List.mem_map_of_mem hmem)).ne_empty
  have hsub := sublist_inSection (hcomplete.sublist_targetLines hne) (List.forall_mem_map.2 hne)
  rw [List.map_map] at hsub
  exact ⟨scripts, hcomplete, hsub⟩

/-- **The listing of a program that was made from a source text leaves nothing out.** There are no
warnings, and in every target each block that is no shadow is written once: a statement as the
header of a line, and a value inside the line of its owner. The text consists of these lines, the
declarations and the frame of the sections. -/
theorem isComplete_of_ofText {text : String} {compiled : Compiled}
    (h : Compile.ofText .builtin text = .ok compiled) :
    (ofProgram .builtin compiled.program).Covers .builtin compiled.program := by
  have htext := textLines_of_ofText h
  refine ⟨List.flatMap_eq_nil_iff.2 fun t ht ↦ ?_, htext, ?_⟩
  · obtain ⟨scripts, hscripts, -⟩ := exists_isComplete_of_ofText h ht
    rw [hscripts.listing]
  · have hsprites : ∀ t ∈ compiled.program.sprites, ∃ scripts, IsComplete .builtin t scripts ∧
        (scripts.flatten.map fun line ↦ indent 1 line.text).Sublist
          (spriteSection t (targetLines .builtin t).1) := by
      intro t ht
      obtain ⟨scripts, hscripts, hsub⟩ := exists_isComplete_of_ofText h (List.mem_cons_of_mem _ ht)
      exact ⟨scripts, hscripts, hsub.trans (inSection_sublist_spriteSection t _)⟩
    obtain ⟨stage, hstage, hfirst⟩ := exists_isComplete_of_ofText h List.mem_cons_self
    obtain ⟨all, hall, hrest⟩ := exists_forall₂_isComplete hsprites
    refine ⟨stage :: all, .cons hstage hall, ?_⟩
    rw [htext, List.flatten_cons, List.flatten_append, List.map_append]
    refine List.Sublist.append ?_ hrest
    exact (hfirst.trans (inSection_sublist_stageSection _)).trans (List.sublist_append_right _ _)

/-- A stage that sends a broadcast, and a sprite with a conditional, nested values and a
procedure. -/
def coveredText : String :=
  "stage_code =\n  broadcast go\nend\nsprite = Cat\nif not(var(score) = 3)\n" ++
    "say @join(hi, there)\nelse\ncall hop\nend\ndefine hop\nshow\n"

/-- There are two shadows: the menu of the broadcast, and the block that carries the name of the
procedure. -/
theorem isComplete_of_ofText_covered :
    ∃ compiled, Compile.ofText .builtin coveredText = .ok compiled ∧
      compiled.program.targets.map (fun t ↦
        (t.blocks.size, (t.blocks.values.filter Block.shadow).length)) = [(3, 1), (11, 1)] ∧
      (ofProgram .builtin compiled.program).Covers .builtin compiled.program := by
  have hmade : (Compile.ofText .builtin coveredText).toOption.map (fun compiled ↦
      compiled.program.targets.map fun t ↦
        (t.blocks.size, (t.blocks.values.filter Block.shadow).length)) =
      some [(3, 1), (11, 1)] := by decide +kernel
  cases hcompile : Compile.ofText .builtin coveredText with
  | error e =>
    rw [hcompile] at hmade
    cases hmade
  | ok compiled =>
    rw [hcompile] at hmade
    exact ⟨compiled, rfl, Option.some.inj hmade, isComplete_of_ofText hcompile⟩

end Listing

end BlockScript
