import Mathlib.Data.List.Pairwise
import BlockScript.Proofs.Rereading

/-!
# The lines of a target read again

The listing of a target declares its variables and lists and writes its scripts. Reading it again
gives scripts that resemble those of the target (`Sheet.takes_scripts`), and neither more nor fewer
variables and lists (`Symbols.Answers.names_iff`). So building a legible target from its own listing
succeeds and gives the same target up to identifiers and constants (`Script.exists_rebuilt`).
-/

namespace BlockScript

variable {catalog : Catalog} {target : TargetKind} {symbols : Symbols}

/-! ### Names -/

section

variable {α : Type}

/-- A shadow asks for proper names only. -/
theorem InputSpec.Admits.asked_isProper {spec : InputSpec} {compares : Bool}
    {constant : Option Literal} {value shadow : Chain α}
    (h : spec.Admits compares constant value shadow) :
    ∀ r ∈ shadow.asked, Text.isProper r.2 = true := by
  by_cases hmenu : spec.kind = .menu
  · simp only [InputSpec.Admits, hmenu] at h
    obtain ⟨-, tag, opcode, field, -, rfl, -, htext⟩ := h
    intro r hr
    simp only [Chain.asked, Node.asked, Slots.asked, List.flatMap_cons, List.flatMap_nil,
      List.append_nil, FieldText.asked, List.mem_append, List.mem_map, Option.mem_toList] at hr
    rcases hr with ⟨kind, -, rfl⟩ | ⟨name, hname, -⟩
    · exact htext
    · cases hname
  · rw [h.shadow_eq_nil hmenu]
    exact fun _ h ↦ absurd h List.not_mem_nil

mutual

/-- Trees ask for proper names only. -/
theorem Chain.IsValue.asked_isProper : ∀ {c : Chain α}, c.IsValue catalog target →
    ∀ r ∈ c.asked, Text.isProper r.2 = true
  | .nil, _, _, hr => absurd hr List.not_mem_nil
  | .cons .., ⟨hrest, _, _, _, _, hnode, hslots⟩, r, hr => by
    subst hrest
    simp only [Chain.asked, List.append_nil, List.mem_append] at hr
    exact hr.elim (hnode.asked r) (hslots.asked_isProper r)

/-- Statements ask for proper names only. -/
theorem Chain.IsBody.asked_isProper : ∀ {c : Chain α}, c.IsBody catalog target →
    ∀ r ∈ c.asked, Text.isProper r.2 = true
  | .nil, _, _, hr => absurd hr List.not_mem_nil
  | .cons .., ⟨⟨_, _, _, _, hnode, hslots⟩, hrest⟩, r, hr => by
    simp only [Chain.asked, List.mem_append] at hr
    rcases hr with hr | hr | hr
    exacts [hnode.asked r hr, hslots.asked_isProper r hr, hrest.asked_isProper r hr]

/-- The slots of a command ask for proper names only. -/
theorem Slots.Fill.asked_isProper {compares : Bool} : ∀ {specs : List InputSpec}
    {names : List String} {s : Slots α}, s.Fill catalog target compares specs names →
      ∀ r ∈ s.asked, Text.isProper r.2 = true
  | [], _, .nil, _, _, hr => absurd hr List.not_mem_nil
  | [], _, .cons .., ⟨⟨_, hshadow, _, _⟩, hbody, hrest⟩, r, hr => by
    subst hshadow
    simp only [Slots.asked, Chain.asked, List.nil_append, List.mem_append] at hr
    exact hr.elim (hbody.asked_isProper r) (hrest.asked_isProper r)
  | _ :: _, _, .cons .., ⟨⟨_, hadmits⟩, hvalue, hrest⟩, r, hr => by
    simp only [Slots.asked, List.mem_append] at hr
    rcases hr with hr | hr | hr
    exacts [hadmits.asked_isProper r hr, hvalue.asked_isProper r hr, hrest.asked_isProper r hr]
  | _ :: _, _, .nil, h, _, _ => h.elim

end

/-- A script asks for proper names only. -/
theorem Chain.IsScript.asked_isProper : ∀ {c : Chain α}, c.IsScript catalog target →
    ∀ r ∈ c.asked, Text.isProper r.2 = true
  | .cons _ node slots rest, ⟨hhead, hrest⟩, r, hr => by
    simp only [Chain.asked, List.mem_append] at hr
    rcases hhead with ⟨c, -, -, -, hnode, hslots⟩ | ⟨rfl, tag, name, hname, rfl⟩
    · rcases hr with hr | hr | hr
      exacts [hnode.asked r hr, hslots.asked_isProper r hr, hrest.asked_isProper r hr]
    · rcases hr with hr | hr | hr
      · cases hr
      · obtain rfl : r = (.procedures, name) := by
          simpa [Content.slot, Slots.asked, Sheet.prototype, Chain.asked, Node.asked] using hr
        exact hname
      · exact hrest.asked_isProper r hr

end

namespace Sheet

/-- All names that the scripts and declarations of a sheet ask for are proper. -/
theorem IsShaped.asked_isProper {σ : Sheet Unit} (h : σ.IsShaped catalog target) :
    ∀ r ∈ σ.asked, Text.isProper r.2 = true := by
  intro r hr
  rcases List.mem_append.1 hr with hr | hr
  · exact h.declared r hr
  · obtain ⟨c, hc, hr⟩ := List.mem_flatMap.1 hr
    exact (h.scripts c hc).asked_isProper r hr

/-- What a sheet asks for does not depend on tags. -/
theorem asked_erase {α : Type} (σ : Sheet α) : σ.erase.asked = σ.asked := by
  rw [asked, asked, erase_scripts, List.flatMap_map]
  simp only [Chain.asked_erase]
  rfl

end Sheet

namespace Symbols

/-- Where nothing is inherited, names are looked up in the own tables. -/
theorem lookup?_of_inherited (h : symbols.inherited = []) (kind : SymbolKind) (name : String) :
    symbols.lookup? kind name =
      (symbols.own.find? kind name).map fun entry ↦ ⟨entry.id, entry.name⟩ := by
  have hvisible : (if kind.isShared then symbols.own :: symbols.inherited else [symbols.own]) =
      [symbols.own] := by
    rw [h]
    split <;> rfl
  rw [lookup?, hvisible, List.findSome?_singleton]

/-- Without tables around it, a name is found among the own declarations. -/
theorem mem_own_of_lookup? (h : symbols.inherited = []) {kind : SymbolKind} {name : String}
    {symbol : Symbol} (hsymbol : symbols.lookup? kind name = some symbol) :
    ∃ entry ∈ symbols.own.get kind, entry.name = symbol.name ∧
      Text.lower entry.name = Text.lower name := by
  rw [lookup?_of_inherited h] at hsymbol
  obtain ⟨entry, hentry, rfl⟩ := Option.map_eq_some_iff.1 hsymbol
  have hsame := List.find?_some hentry
  exact ⟨entry, List.mem_of_find?_eq_some hentry, rfl, beq_iff_eq.1 hsame⟩

/-- Names that were properly asked for are properly declared. -/
theorem Answers.areOwn {asked : List Request} (h : symbols.Answers asked)
    (hinherited : symbols.inherited = []) (hproper : ∀ r ∈ asked, Text.isProper r.2 = true) :
    symbols.AreOwn := by
  intro kind name symbol hsymbol
  obtain ⟨entry, hentry, hname, -⟩ := mem_own_of_lookup? hinherited hsymbol
  refine ⟨?_, fun _ ↦ ⟨entry, hentry, hname⟩⟩
  rw [← hname]
  exact hproper (kind, entry.name) (h.named kind entry hentry)

/-- The lower-case form of a name tells its declaration. -/
theorem eq_of_lower_eq {entries : List Declaration} {first second : Declaration}
    (hdistinct : entries.Pairwise fun a b ↦ Text.lower a.name ≠ Text.lower b.name)
    (hfirst : first ∈ entries) (hsecond : second ∈ entries)
    (h : Text.lower first.name = Text.lower second.name) : first = second := by
  have : Std.Symm fun a b : Declaration ↦ Text.lower a.name ≠ Text.lower b.name :=
    ⟨fun _ _ h ↦ h.symm⟩
  by_contra hne
  exact hdistinct.forall hfirst hsecond hne h

/-- If one target asks for all names of another and for no others of that kind, both have the same
names. -/
theorem Answers.names_iff {again : Symbols} {asked : List Request} {kind : SymbolKind}
    (hshared : kind.isShared = true)
    (hdistinct : (symbols.own.get kind).Pairwise fun a b ↦ Text.lower a.name ≠ Text.lower b.name)
    (h : again.Answers asked) (hinherited : again.inherited = [])
    (hall : ∀ entry ∈ symbols.own.get kind, (kind, entry.name) ∈ asked)
    (honly : ∀ r ∈ asked, symbols.Declares r) (name : String) :
    name ∈ (again.own.get kind).map Declaration.name ↔
      name ∈ (symbols.own.get kind).map Declaration.name := by
  have hsub : ∀ entry ∈ again.own.get kind, ∃ known ∈ symbols.own.get kind,
      known.name = entry.name := fun entry hentry ↦
    honly _ (h.named kind entry hentry) hshared
  simp only [List.mem_map]
  constructor
  · rintro ⟨entry, hentry, rfl⟩
    exact hsub entry hentry
  · rintro ⟨entry, hentry, rfl⟩
    -- the name is found, in a spelling that is one of the known ones
    obtain ⟨symbol, hsymbol⟩ := Option.isSome_iff_exists.1 (h.known _ (hall entry hentry))
    obtain ⟨found, hfound, -, hlower⟩ := mem_own_of_lookup? hinherited hsymbol
    obtain ⟨known, hknown, hname⟩ := hsub found hfound
    refine ⟨found, hfound, ?_⟩
    rw [← hname, eq_of_lower_eq hdistinct hknown hentry (by rw [hname]; exact hlower)]

end Symbols

/-! ### Declarations -/

namespace Listing

/-- An initial value is written as one word. -/
theorem isWord_initialValue (text : String) : IsWord (initialValue text).toList := by
  unfold initialValue
  split
  · exact Token.isWord_format text
  · split
    · exact isWord_of_plain (Number.format_plain _).1 (Number.format_plain _).2
    · exact Token.isWord_format text

/-- Without depth there is no indentation. -/
theorem indent_zero (text : String) : indent 0 text = text := by
  simp [indent, Text.replicate]

end Listing

namespace Sheet

/-- The second sheet declares these names too, in whatever order. -/
def Adds (rs : List Request) (σ τ : Sheet Unit) : Prop :=
  ∃ more, τ = { σ with declared := σ.declared ++ more } ∧ ∀ r, r ∈ more ↔ r ∈ rs

namespace Adds

variable {rs rs' : List Request} {σ τ υ : Sheet Unit}

/-- Nothing is asked for by no lines. -/
theorem refl : Adds [] σ σ :=
  ⟨[], by simp, fun _ ↦ Iff.rfl⟩

/-- What is asked for one after the other is asked for together. -/
theorem trans (h : Adds rs σ τ) (h' : Adds rs' τ υ) : Adds (rs ++ rs') σ υ := by
  obtain ⟨more, rfl, hmore⟩ := h
  obtain ⟨more', rfl, hmore'⟩ := h'
  exact ⟨more ++ more', by simp, fun r ↦ by simp [hmore, hmore']⟩

/-- The order of what is asked for does not matter. -/
theorem congr (h : Adds rs σ τ) (hrs : ∀ r, r ∈ rs ↔ r ∈ rs') : Adds rs' σ τ := by
  obtain ⟨more, rfl, hmore⟩ := h
  exact ⟨more, rfl, fun r ↦ (hmore r).trans (hrs r)⟩

end Adds

section

variable (hcat : catalog.IsRegular) {c : Command} (hc : c ∈ catalog.commands.values)
  (hkind : c.kind = .declare) {kind : SymbolKind}
  (hdeclares : ∀ args, ∃ initial, Build.declaration? c.name args = some (kind, initial))

include hcat hc hkind hdeclares

/-- A written declaration declares the name it was written for. -/
theorem takes_declaration {name : String} (hname : Text.isProper name = true) {words : List String}
    (hwords : ∀ w ∈ words, IsWord w.toList) (σ : Sheet Unit) :
    Takes catalog target [Listing.commandLine c.name (Token.format name :: words)] σ
      (σ.Adds [(kind, name)]) := by
  have hall : ∀ w ∈ Token.format name :: words, IsWord w.toList := by
    intro w hw
    rcases List.mem_cons.1 hw with rfl | hw
    · exact Token.isWord_format name
    · exact hwords w hw
  refine .single (Listing.commandLine_ne_empty (name_ne_empty hcat hc) _) fun n ↦
    ⟨_, ?_, _, rfl, fun _ ↦ Iff.rfl⟩
  have hline : σ.line catalog target ⟨n, Listing.indent 0 (Listing.commandLine c.name
      (Token.format name :: words))⟩ = _ :=
    line_words (hcat.regular c hc).name (hcat.resolve c hc) (fun w hw ↦ (hall w hw).isRow)
      (fun w hw ↦ (hall w hw).isPiece) rfl n 0 σ
  obtain ⟨initial, hinitial⟩ := hdeclares ((Token.format name :: words).map Token.unquote)
  rw [Listing.indent_zero] at hline
  rw [hline, Sheet.command, hkind]
  simp only [Sheet.declare, hinitial]
  rw [List.map_cons, Token.unquote_format, List.head?_cons, Option.getD_some,
    Text.nameOr_of_isProper hname]
  rfl

/-- Written declarations declare the names they were written for, in whatever order. -/
theorem takes_declarations {β : Type} (name : β → String) (words : β → List String) :
    ∀ {entries : List β}, (∀ e ∈ entries, Text.isProper (name e) = true ∧
      ∀ w ∈ words e, IsWord w.toList) → ∀ σ : Sheet Unit,
      Takes catalog target (entries.map fun e ↦
        Listing.commandLine c.name (Token.format (name e) :: words e)) σ
        (σ.Adds (entries.map fun e ↦ (kind, name e)))
  | [], _, σ => .nil .refl
  | e :: entries, h, σ => by
    obtain ⟨hname, hwords⟩ := h e List.mem_cons_self
    rw [List.map_cons, ← List.singleton_append]
    refine (takes_declaration hcat hc hkind hdeclares hname hwords σ).append fun τ hτ ↦ ?_
    refine (takes_declarations name words (fun e' he' ↦ h e' (List.mem_cons_of_mem _ he')) τ).mono
      ?_
    exact fun υ hυ ↦ hτ.trans hυ

/-- It does not matter in which order names are declared. -/
theorem takes_sorted {β : Type} (name : β → String) (words : β → List String)
    {sorted entries : List β} (hperm : sorted.Perm entries)
    (h : ∀ e ∈ entries, Text.isProper (name e) = true ∧ ∀ w ∈ words e, IsWord w.toList)
    (σ : Sheet Unit) :
    Takes catalog target (sorted.map fun e ↦
      Listing.commandLine c.name (Token.format (name e) :: words e)) σ
      (σ.Adds (entries.map fun e ↦ (kind, name e))) := by
  refine (takes_declarations hcat hc hkind hdeclares name words
    (fun e he ↦ h e (hperm.mem_iff.1 he)) σ).mono fun τ hτ ↦ hτ.congr fun r ↦ ?_
  exact (hperm.map _).mem_iff

end

variable {t : Target}

/-- The lines of variables declare them. -/
theorem takes_variableLines (hcat : catalog.IsRegular)
    (ht : ∀ v ∈ t.vars, Text.isProper v.name = true) (σ : Sheet Unit) :
    Takes catalog target (Listing.variableLines t) σ
      (σ.Adds (t.vars.map fun v ↦ (.vars, v.name))) := by
  have hc : ({ name := "make_var", kind := .declare } : Command) ∈ catalog.commands.values :=
    hcat.essential _ (by decide)
  unfold Listing.variableLines
  generalize (if t.isStage then "stage_var" else "sprite_var") = fallback
  have hnamed : (t.vars.map fun v ↦ (Text.nameOr v.name fallback, v.value)) =
      t.vars.map fun v ↦ (v.name, v.value) :=
    List.map_congr_left fun v hv ↦ by rw [Text.nameOr_of_isProper (ht v hv)]
  have hrequests : t.vars.map (fun v ↦ (SymbolKind.vars, v.name)) =
      (t.vars.map fun v ↦ (v.name, v.value)).map fun v ↦ (.vars, v.1) := by
    rw [List.map_map]
    rfl
  dsimp only
  rw [hnamed, hrequests]
  refine takes_sorted hcat hc rfl (fun _ ↦ ⟨_, rfl⟩) Prod.fst (fun v ↦ [Listing.initialValue v.2])
    (List.mergeSort_perm _ _) (fun v hv ↦ ?_) σ
  obtain ⟨v, hmem, rfl⟩ := List.mem_map.1 hv
  refine ⟨ht v hmem, fun w hw ↦ ?_⟩
  rw [List.mem_singleton.1 hw]
  exact Listing.isWord_initialValue _

/-- The lines of lists or broadcasts declare them. -/
theorem takes_symbolLines (hcat : catalog.IsRegular) {word : String} {kind : SymbolKind}
    (hword : ({ name := word, kind := .declare } : Command) ∈ Catalog.essential)
    (hdeclares : ∀ args, ∃ initial, Build.declaration? word args = some (kind, initial))
    {symbols : List Symbol} (hsymbols : ∀ s ∈ symbols, Text.isProper s.name = true)
    (fallback : String) (σ : Sheet Unit) :
    Takes catalog target (Listing.symbolLines word fallback symbols) σ
      (σ.Adds (symbols.map fun s ↦ (kind, s.name))) := by
  unfold Listing.symbolLines
  have hnamed : (symbols.map fun s ↦ Text.nameOr s.name fallback) = symbols.map Symbol.name :=
    List.map_congr_left fun s hs ↦ Text.nameOr_of_isProper (hsymbols s hs) _
  have hrequests : symbols.map (fun s ↦ (kind, s.name)) =
      (symbols.map Symbol.name).map fun name ↦ (kind, name) := by
    rw [List.map_map]
    rfl
  rw [hnamed, hrequests]
  refine takes_sorted hcat (hcat.essential _ hword) rfl hdeclares id (fun _ ↦ [])
    (List.mergeSort_perm _ _) (fun name hname ↦ ?_) σ
  obtain ⟨s, hs, rfl⟩ := List.mem_map.1 hname
  exact ⟨hsymbols s hs, fun _ hw ↦ absurd hw List.not_mem_nil⟩

end Sheet

/-- The names that the listing of a target declares. -/
def Target.requests (t : Target) : List Request :=
  t.vars.map (fun v ↦ (.vars, v.name)) ++ t.lists.map (fun s ↦ (.lists, s.name)) ++
    if t.isStage then t.broadcasts.map fun s ↦ (.broadcasts, s.name) else []

/-- The names of a target are proper. -/
structure Target.IsNamed (t : Target) : Prop where
  vars : ∀ v ∈ t.vars, Text.isProper v.name = true
  lists : ∀ s ∈ t.lists, Text.isProper s.name = true
  broadcasts : ∀ s ∈ t.broadcasts, Text.isProper s.name = true

/-- The declarations in a listing declare the names of the target. -/
theorem Sheet.takes_declarationLines (hcat : catalog.IsRegular) {t : Target} (ht : t.IsNamed)
    (σ : Sheet Unit) :
    Takes catalog target (Listing.declarationLines t) σ (σ.Adds t.requests) := by
  refine Takes.append (Takes.append (takes_variableLines hcat ht.vars σ) fun τ hτ ↦
    (takes_symbolLines hcat (by decide) (fun _ ↦ ⟨_, rfl⟩) ht.lists "list" τ).mono fun υ hυ ↦
      hτ.trans hυ) fun τ hτ ↦ ?_
  unfold Target.requests
  split
  · exact (takes_symbolLines hcat (by decide) (fun _ ↦ ⟨_, rfl⟩) ht.broadcasts _ τ).mono fun υ hυ ↦
      hτ.trans hυ
  · exact .nil (hτ.trans .refl)

/-! ### Targets -/

section

variable {α β : Type}

mutual

/-- Trees resemble each other without their tags too. -/
theorem Chain.Resembles.erase : ∀ {c : Chain α} {d : Chain β}, c.Resembles d → c.erase.Resembles d
  | .nil, .nil, _ => trivial
  | .cons .., .cons .., ⟨hopcode, hslots, hrest⟩ => ⟨hopcode, hslots.erase, hrest.erase⟩

/-- Slots resemble each other without their tags too. -/
theorem Slots.Resemble.erase {compares : Bool} : ∀ {s : Slots α} {u : Slots β},
    s.Resemble compares u → s.erase.Resemble compares u
  | .nil, .nil, _ => trivial
  | .cons .., .cons .., ⟨⟨hinput, hconstant⟩, hvalue, hshadow, hrest⟩ =>
    ⟨⟨hinput, fun hcompares hnil ↦ hconstant hcompares (Chain.erase_eq_nil.1 hnil)⟩, hvalue.erase,
      hshadow.erase, hrest.erase⟩

end

end

/-- The entry points of two targets unfold to scripts of which the second resemble the first, one by
one and in the same order, and both targets have the same variables and lists. -/
structure TargetBuild.Corresponds (resembles : Tree → Tree → Prop) (built rebuilt : TargetBuild) :
    Prop where
  roots : List.Forall₂ (fun root root' ↦ ∃ script script', built.Unfolds root script ∧
      rebuilt.Unfolds root' script' ∧ resembles script script')
    built.target.roots rebuilt.target.roots
  vars : ∀ name, name ∈ rebuilt.target.vars.map Variable.name ↔
    name ∈ built.target.vars.map Variable.name
  lists : ∀ name, name ∈ rebuilt.target.lists.map Symbol.name ↔
    name ∈ built.target.lists.map Symbol.name

/-- Builds that correspond closely correspond loosely. -/
theorem TargetBuild.Corresponds.mono {resembles resembles' : Tree → Tree → Prop}
    (h : ∀ t t', resembles t t' → resembles' t t') {built rebuilt : TargetBuild}
    (hb : built.Corresponds resembles rebuilt) : built.Corresponds resembles' rebuilt where
  roots := hb.roots.imp fun _ _ ⟨t, t', ht, ht', hr⟩ ↦ ⟨t, t', ht, ht', h t t' hr⟩
  vars := hb.vars
  lists := hb.lists

/-- Trees that read back ask for no names but the declared ones. -/
theorem Chain.declares_of_recalls {cs : List (Chain BlockId)} {ds : List Tree}
    (h : List.Forall₂ (Chain.Recalls symbols) cs ds) :
    ∀ d ∈ ds, ∀ r ∈ d.asked, symbols.Declares r := by
  induction h with
  | nil => exact fun _ hd ↦ absurd hd List.not_mem_nil
  | cons hrecalls _ ih =>
    intro d hd
    rcases List.mem_cons.1 hd with rfl | hd
    · exact hrecalls.declares
    · exact ih d hd

/-- Roots that unfold to scripts which resemble each other correspond. -/
theorem forall₂_unfold {resembles : Chain BlockId → Tree → Prop} {built rebuilt : TargetBuild} :
    ∀ {roots roots' : List BlockId} {cs : List (Chain BlockId)} {ds : List Tree},
      List.Forall₂ built.Unfolds roots (cs.map Chain.erase) → List.Forall₂ resembles cs ds →
      List.Forall₂ rebuilt.Unfolds roots' ds →
        List.Forall₂ (fun root root' ↦ ∃ c d, built.Unfolds root (Chain.erase c) ∧
          rebuilt.Unfolds root' d ∧ resembles c d) roots roots'
  | [], _, [], _, _, .nil, .nil => .nil
  | _ :: _, _, _ :: _, _, .cons h hs, .cons hr hrs, .cons h' hs' =>
    .cons ⟨_, _, h, h', hr⟩ (forall₂_unfold hs hrs hs')

namespace Sheet.Drafted

variable {σ : Sheet BlockId} {d : Draft}

/-- The declared names of a target are proper. -/
theorem isProper_of_mem (h : σ.Drafted [] d) (hshaped : σ.erase.IsShaped catalog target)
    (kind : SymbolKind) {entry : Declaration} (hentry : entry ∈ d.symbols.own.get kind) :
    Text.isProper entry.name = true := by
  refine hshaped.asked_isProper (kind, entry.name) ?_
  rw [asked_erase]
  exact h.answers.named kind entry hentry

/-- A target names what its blocks refer to. -/
theorem isNamed (h : σ.Drafted [] d) (hshaped : σ.erase.IsShaped catalog target) (name : String) :
    (d.finish target name).target.IsNamed where
  vars v hv := by
    obtain ⟨entry, hentry, rfl⟩ := List.mem_map.1 hv
    exact h.isProper_of_mem hshaped .vars hentry
  lists s hs := by
    obtain ⟨entry, hentry, rfl⟩ := List.mem_map.1 hs
    exact h.isProper_of_mem hshaped .lists hentry
  broadcasts s hs := by
    obtain ⟨entry, hentry, rfl⟩ := List.mem_map.1 hs
    exact h.isProper_of_mem hshaped .broadcasts hentry

/-- The lines of the listing of a drafted target are read as scripts that resemble those of the
target, and as declarations of its names. -/
theorem takes_targetLines (hcat : catalog.IsRegular) (h : σ.Drafted [] d)
    (hshaped : σ.erase.IsShaped catalog target) {name : String}
    (hlegible : (d.finish target name).target.IsLegible catalog) :
    Takes catalog target (Listing.targetLines catalog (d.finish target name).target).1 {} fun τ ↦
      τ.isNested = false ∧ (∀ r, r ∈ τ.declared ↔ r ∈ (d.finish target name).target.requests) ∧
        List.Forall₂ (Chain.Recalls d.symbols) σ.scripts τ.scripts := by
  have hsymbols : d.symbols.AreOwn := by
    refine h.answers.areOwn h.inherited ?_
    rw [← asked_erase]
    exact hshaped.asked_isProper
  have hscripts : ∀ c ∈ σ.scripts, c.IsScript catalog target ∧
      (∃ s, c.Held ⟨d.blocks, d.symbols⟩ s) ∧ c.IsLegible catalog d.symbols := by
    intro c hc
    obtain ⟨i, hi⟩ := List.mem_iff_getElem?.1 hc
    have hheld : c.Held ⟨(d.finish target name).target.blocks, d.symbols⟩ _ := h.held i c hi
    refine ⟨.of_erase (hshaped.scripts _ ?_), ⟨_, hheld⟩, hheld.isLegible hlegible⟩
    rw [erase_scripts]
    exact List.mem_map_of_mem hc
  refine Takes.congr ?_ (h.targetLines_eq hcat hshaped.scripts name)
  refine (takes_declarationLines hcat (h.isNamed hshaped name) {}).append ?_
  rintro τ ⟨more, rfl, hmore⟩
  refine (takes_scripts hcat hsymbols hscripts rfl).mono ?_
  rintro υ ⟨hnested, hdeclared, ds, hds, hscripts⟩
  refine ⟨hnested, fun r ↦ ?_, ?_⟩
  · rw [hdeclared]
    exact hmore r
  · rw [hscripts]
    exact hds

/-- The names that a listing declares are those of the target. -/
theorem declares_of_mem_requests {name : String} {r : Request}
    (h : r ∈ (d.finish target name).target.requests) : d.symbols.Declares r := by
  intro hshared
  rcases List.mem_append.1 h with h | h
  · rcases List.mem_append.1 h with h | h
    all_goals
      obtain ⟨v, hv, rfl⟩ := List.mem_map.1 h
      obtain ⟨entry, hentry, rfl⟩ := List.mem_map.1 hv
      exact ⟨entry, hentry, rfl⟩
  · split at h
    · obtain ⟨v, -, rfl⟩ := List.mem_map.1 h
      cases hshared
    · cases h

/-- A sheet that asks for the names of another target, and for no variables and lists but these,
gives a target with the same variables and lists. -/
theorem names_iff {again : Sheet BlockId} {d' : Draft} (h : σ.Drafted [] d)
    (h' : again.Drafted [] d') {name : String}
    (hdeclared : ∀ r, r ∈ again.declared ↔ r ∈ (d.finish target name).target.requests)
    (hscripts : List.Forall₂ (Chain.Recalls d.symbols) σ.scripts again.erase.scripts)
    (kind : SymbolKind) (hshared : kind.isShared = true) (text : String) :
    text ∈ (d'.symbols.own.get kind).map Declaration.name ↔
      text ∈ (d.symbols.own.get kind).map Declaration.name := by
  refine h'.answers.names_iff hshared (h.answers.distinct kind) h'.inherited (fun entry hentry ↦ ?_)
    (fun r hr ↦ ?_) text
  · refine List.mem_append_left _ ((hdeclared _).2 ?_)
    cases kind <;> try cases hshared
    · exact List.mem_append_left _ (List.mem_append_left _
        (List.mem_map.2 ⟨_, List.mem_map_of_mem hentry, rfl⟩))
    · exact List.mem_append_left _ (List.mem_append_right _
        (List.mem_map.2 ⟨_, List.mem_map_of_mem hentry, rfl⟩))
  · rcases List.mem_append.1 hr with hr | hr
    · exact declares_of_mem_requests ((hdeclared r).1 hr)
    · obtain ⟨c, hc, hr⟩ := List.mem_flatMap.1 hr
      have hmem : c.erase ∈ again.erase.scripts := by
        rw [erase_scripts]
        exact List.mem_map_of_mem hc
      exact Chain.declares_of_recalls hscripts _ hmem r (by rwa [Chain.asked_erase])

end Sheet.Drafted

/-- **The listing of a legible target builds the target again**, up to the identifiers of its blocks
and symbols, texts that are no operands of comparisons, and the form of numbers. -/
theorem Script.exists_rebuilt (hcat : catalog.IsRegular) {kind : TargetKind}
    {sources again : List SourceLine} {built : TargetBuild}
    (h : build catalog kind sources = .ok built) (hlegible : built.target.IsLegible catalog)
    (hagain : again.map SourceLine.text = (Listing.targetLines catalog built.target).1) :
    ∃ rebuilt, build catalog kind again = .ok rebuilt ∧
      built.Corresponds Chain.Resembles rebuilt := by
  obtain ⟨σ, d, hread, hσ, rfl⟩ := drafted_of_build hcat.distinct h
  have hshaped := Sheet.isShaped_of_read hcat hread
  obtain ⟨τ, hreadAgain, -, hdeclared, hrecall⟩ :=
    (hσ.takes_targetLines hcat hshaped hlegible).read (fun _ h ↦ h.1) hagain
  obtain ⟨σ', d', rfl, hσ', hbuild'⟩ := build_of_read hcat.distinct hreadAgain
  have hshaped' := Sheet.isShaped_of_read hcat hreadAgain
  have hroots := hσ.roots_unfold kind (targetName kind) fun c hc ↦ (hshaped.scripts c hc).head hcat
  have hroots' := hσ'.roots_unfold kind (targetName kind) fun c hc ↦
    (hshaped'.scripts c hc).head hcat
  rw [Sheet.erase_scripts] at hroots
  refine ⟨_, hbuild', ⟨?_, fun name ↦ ?_, fun name ↦ ?_⟩⟩
  · refine (forall₂_unfold hroots hrecall hroots').imp ?_
    rintro root root' ⟨c, t, hc, ht, hrecalls⟩
    exact ⟨c.erase, t, hc, ht, hrecalls.resembles.erase⟩
  · have hnames := hσ.names_iff hσ' hdeclared hrecall .vars rfl name
    simpa [Draft.finish, Symbols.declaredVariables, SymbolTables.get] using hnames
  · have hnames := hσ.names_iff hσ' hdeclared hrecall .lists rfl name
    simpa [Draft.finish, Symbols.declared] using hnames

/-- **The listing of a target without comparisons builds a target with the same scripts.** Each
entry point unfolds to the same operation codes, and variables and lists are the same. -/
theorem Script.rebuilt_scripts {kind : TargetKind} {sources again : List SourceLine}
    {built : TargetBuild} (h : build .builtin kind sources = .ok built)
    (hcomparisons : ∀ b ∈ built.target.blocks.values, Opcode.isComparison b.opcode = false)
    (hmenus : ∀ b ∈ built.target.blocks.values, b.shadow = true → ∀ field ∈ b.fields.values,
      Text.startsWith field.text "@" = false ∧ Call.isShaped field.text = false)
    (hagain : again.map SourceLine.text = (Listing.targetLines .builtin built.target).1) :
    ∃ rebuilt, build .builtin kind again = .ok rebuilt ∧
      built.Corresponds (fun script script' ↦ script.skeleton = script'.skeleton) rebuilt := by
  have hlegible : built.target.IsLegible .builtin := by
    refine ⟨fun b _ slot _ c hc hcompares ↦ ?_, hmenus⟩
    obtain ⟨id, -, hfind⟩ := Option.bind_eq_some_iff.1 hc
    rw [hcomparisons c (Dict.mem_values_of_find? hfind)] at hcompares
    cases hcompares
  obtain ⟨rebuilt, hrebuilt, hcorresponds⟩ :=
    exists_rebuilt Catalog.builtin_isRegular h hlegible hagain
  exact ⟨rebuilt, hrebuilt, hcorresponds.mono fun _ _ ↦ Chain.Resembles.skeleton_eq⟩

/-- The lines of a listing, numbered from one. -/
def Listing.numbered (lines : List String) : List SourceLine :=
  lines.zipIdx.map fun line ↦ ⟨line.2 + 1, line.1⟩

/-- Numbering lines leaves their texts as they are. -/
theorem Listing.text_numbered (lines : List String) :
    (numbered lines).map SourceLine.text = lines := by
  simp [numbered, Function.comp_def]

/-- A variable, a conditional with two branches, an expression, a loop and a menu. -/
def gameLines : List SourceLine :=
  [⟨1, "make_var score 5"⟩, ⟨2, "when_flag_clicked"⟩, ⟨3, "if mouse_down()"⟩,
    ⟨4, "set_var score @add(1, 2)"⟩, ⟨5, "else"⟩, ⟨6, "repeat 3"⟩, ⟨7, "go_to mouse"⟩, ⟨8, "end"⟩,
    ⟨9, "end"⟩]

/-- A target with events, loops and shadows is built again with the same scripts. -/
theorem Script.rebuilt_scripts_game : ∃ built, build .builtin .sprite gameLines = .ok built ∧
    built.blockCount = 8 ∧ ∃ rebuilt,
      build .builtin .sprite (Listing.numbered (Listing.targetLines .builtin built.target).1) =
        .ok rebuilt ∧
      built.Corresponds (fun script script' ↦ script.skeleton = script'.skeleton) rebuilt := by
  have hfacts : (build .builtin .sprite gameLines).toOption.map (fun built ↦
      (built.blockCount, decide (∀ b ∈ built.target.blocks.values,
        Opcode.isComparison b.opcode = false ∧ (b.shadow = true → ∀ field ∈ b.fields.values,
          Text.startsWith field.text "@" = false ∧ Call.isShaped field.text = false)))) =
      some (8, true) := by decide +kernel
  cases hbuild : build .builtin .sprite gameLines with
  | error e =>
    rw [hbuild] at hfacts
    cases hfacts
  | ok built =>
    rw [hbuild] at hfacts
    obtain ⟨hcount, hblocks⟩ := Prod.mk.inj (Option.some.inj hfacts)
    have hblocks := of_decide_eq_true hblocks
    exact ⟨built, rfl, hcount, rebuilt_scripts hbuild (fun b hb ↦ (hblocks b hb).1)
      (fun b hb ↦ (hblocks b hb).2) (Listing.text_numbered _)⟩

/-- **The listing of a legible target builds a target with the same comparisons**: the same blocks
in the same places, and in comparisons the same constants up to the form of numbers. -/
theorem Script.rebuilt_comparisons {kind : TargetKind} {sources again : List SourceLine}
    {built : TargetBuild} (h : build .builtin kind sources = .ok built)
    (hlegible : built.target.IsLegible .builtin)
    (hagain : again.map SourceLine.text = (Listing.targetLines .builtin built.target).1) :
    ∃ rebuilt, build .builtin kind again = .ok rebuilt ∧
      built.Corresponds Chain.Resembles rebuilt :=
  exists_rebuilt Catalog.builtin_isRegular h hlegible hagain

/-- In a slot for a text a comparison is written as a comparison too, and there it is no
expression. -/
example : (Script.build ⟨.ofList [("say", { name := "say", opcode? := some "say", inputs := [
      { name := "MESSAGE", source := .rest 0, kind := .text }] })], ∅⟩ .sprite
    [⟨1, "say @1 > 2"⟩]).toOption = none := by
  decide +kernel

/-- A comparison with a quoted sign, and one inside a negation. -/
def comparisonLines : List SourceLine :=
  [⟨1, "if \"a>b\" = var(x)"⟩, ⟨2, "wait_until not(1.50 < timer())"⟩, ⟨3, "end"⟩]

/-- Comparisons of texts in quotes read back as the same comparisons. -/
theorem Script.rebuilt_comparisons_quoted :
    ∃ built, build .builtin .sprite comparisonLines = .ok built ∧ built.blockCount = 8 ∧
      ∃ rebuilt, build .builtin .sprite
          (Listing.numbered (Listing.targetLines .builtin built.target).1) = .ok rebuilt ∧
        built.Corresponds Chain.Resembles rebuilt := by
  have hfacts : (build .builtin .sprite comparisonLines).toOption.map (fun built ↦
      (built.blockCount, decide (built.target.IsLegible .builtin))) = some (8, true) := by
    decide +kernel
  cases hbuild : build .builtin .sprite comparisonLines with
  | error e =>
    rw [hbuild] at hfacts
    cases hfacts
  | ok built =>
    rw [hbuild] at hfacts
    obtain ⟨hcount, hlegible⟩ := Prod.mk.inj (Option.some.inj hfacts)
    exact ⟨built, rfl, hcount, rebuilt_comparisons hbuild (of_decide_eq_true hlegible)
      (Listing.text_numbered _)⟩

end BlockScript
