import BlockScript.Proofs.Headline
import BlockScript.Proofs.Layout

/-!
# Headers of a listing

A listing names each sprite twice: in the line that makes it active, where the name is a token, and
in the header of its section, where it is escaped but never unescaped again. The first is always
read back (`Header.parse?_spriteName`, and `Header.parse?_costume` for the costume). The second is
read back if the name needs no escapes and is not that of the stage (`Header.parse?_codeHeader`); a
name with a double quote gives a line that is no header at all (`Header.parse?_codeHeader_quote`),
and neither is any line of a script (`Header.parse?_of_isLine`).
-/

namespace BlockScript

namespace Header

/-! ### Words in front of an equals sign -/

/-- In front of an assignment stand the letters of its word, and an equals sign comes next. -/
theorem afterAssignment?_eq_some {word : String} {cs rest : List Char}
    (h : afterAssignment? word cs = some rest) :
    ∃ after, (cs.take word.toList.length).map foldLetter = word.toList ∧
      Chars.trimStart (cs.drop word.toList.length) = '=' :: after ∧
      rest = Chars.trimStart after := by
  unfold afterAssignment? at h
  split at h
  · next after hafter =>
    obtain ⟨found, hfound, htrim⟩ := Option.map_eq_some_iff.1 hafter
    unfold afterWord? at hfound
    split at hfound
    · next htake =>
      obtain rfl := Option.some.inj hfound
      exact ⟨after, eq_of_beq htake, htrim, (Option.some.inj h).symm⟩
    · cases hfound
  · cases h

/-- A line starts with an assignment to no other word but its first one. -/
theorem map_foldLetter_of_afterAssignment? {word : String} {p tail rest : List Char}
    (hp : ∀ c ∈ p, isWordChar c = true) (htail : tail = [] ∨ ∃ more, tail = ' ' :: more)
    (hword : ' ' ∉ word.toList) (h : afterAssignment? word (p ++ tail) = some rest) :
    p.map foldLetter = word.toList := by
  obtain ⟨after, htake, htrim, -⟩ := afterAssignment?_eq_some h
  rcases Nat.lt_trichotomy word.toList.length p.length with hlt | heq | hgt
  · -- the word ends inside the first one, so no equals sign follows
    rw [List.drop_append_of_le_length (Nat.le_of_lt hlt), List.drop_eq_getElem_cons hlt,
      List.cons_append] at htrim
    have hchar := hp _ (List.getElem_mem hlt)
    rw [Chars.trimStart,
      List.dropWhile_cons_of_neg (by simp [not_isWhite_of_isWordChar hchar])] at htrim
    exact absurd (List.cons.inj htrim).1 (ne_of_isWordChar hchar (by decide))
  · rw [heq, List.take_left] at htake
    exact htake
  · -- the word would have to hold the space after the first one
    rw [List.take_append, List.map_append] at htake
    rcases htail with rfl | ⟨more, rfl⟩
    · have hlength := congrArg List.length htake
      simp only [List.take_nil, List.map_nil, List.append_nil, List.length_map,
        List.length_take] at hlength
      omega
    · obtain ⟨k, hk⟩ : ∃ k, word.toList.length - p.length = k + 1 :=
        ⟨word.toList.length - p.length - 1, by omega⟩
      rw [hk, List.take_succ_cons, List.map_cons] at htake
      refine absurd ?_ hword
      rw [← htake]
      exact List.mem_append_right _ List.mem_cons_self

/-- The words that an assignment between sections can start with. -/
def assignments : List String := ["stage_code", "sprite", "svg"]

/-- The first word of a line is not one that makes it an assignment. -/
theorem afterAssignment?_eq_none {p tail : List Char}
    (hp : ∀ c ∈ p, isWordChar c = true) (htail : tail = [] ∨ ∃ more, tail = ' ' :: more)
    {word : String} (hword : word ∈ assignments) (hne : p.map foldLetter ≠ word.toList) :
    afterAssignment? word (p ++ tail) = none := by
  have hspace : ∀ word ∈ assignments, ' ' ∉ word.toList := by decide
  cases h : afterAssignment? word (p ++ tail) with
  | none => rfl
  | some rest =>
    exact absurd (map_foldLetter_of_afterAssignment? hp htail (hspace word hword) h) hne

/-- A line without an assignment is a header only if it opens the section of a sprite. -/
theorem parse?_eq_spriteSection {p tail : List Char}
    (hp : ∀ c ∈ p, isWordChar c = true) (htail : tail = [] ∨ ∃ more, tail = ' ' :: more)
    (hne : ∀ word ∈ assignments, p.map foldLetter ≠ word.toList) :
    parse? (p ++ tail) = (spriteSection? (p ++ tail)).map fun name ↦
      .spriteCode (String.ofList name) := by
  have hnone : ∀ word ∈ assignments, afterAssignment? word (p ++ tail) = none := fun word hword ↦
    afterAssignment?_eq_none hp htail hword (hne word hword)
  rw [parse?, hnone "stage_code" (by decide), hnone "sprite" (by decide), hnone "svg" (by decide)]
  rfl

/-! ### Assignments -/

/-- What is assigned to a word is read without the space in front of it. -/
theorem afterAssignment?_self {word : String} (hword : word.toList.map foldLetter = word.toList)
    {value : List Char} (hvalue : ∀ c ∈ value.head?, Text.isWhite c = false) :
    afterAssignment? word (word.toList ++ ' ' :: '=' :: ' ' :: value) = some value := by
  have hafter : afterWord? word.toList (word.toList ++ ' ' :: '=' :: ' ' :: value) =
      some (' ' :: '=' :: ' ' :: value) := by
    rw [afterWord?, List.take_left, List.drop_left, hword]
    simp
  have htrim : Chars.trimStart (' ' :: value) = value := by
    show Chars.trimStart value = value
    cases value with
    | nil => rfl
    | cons c rest =>
      rw [Chars.trimStart, List.dropWhile_cons_of_neg]
      simp [hvalue c rfl]
  rw [afterAssignment?, hafter]
  show some (Chars.trimStart (' ' :: value)) = _
  rw [htrim]

theorem unquote_token (s : String) :
    String.ofList (Chars.unquote (Token.format s).toList) = s :=
  Token.unquote_format s

theorem filter_token (s : String) :
    (some (Token.format s).toList).filter (!·.isEmpty) = some (Token.format s).toList := by
  rw [Option.filter_some, if_pos]
  simpa using (Token.isWord_format s).ne_nil

/-- The line that makes a sprite active gives its name back. -/
theorem parse?_spriteName (name : String) :
    parse? ("sprite = " ++ Token.format name).toList = some (.spriteName name) := by
  have hline : ("sprite = " ++ Token.format name).toList =
      "sprite".toList ++ ' ' :: '=' :: ' ' :: (Token.format name).toList := by simp
  have hvalue := afterAssignment?_self
    (by decide : "sprite".toList.map foldLetter = "sprite".toList)
    (Token.isWord_format name).head?_not_white
  have hstage : afterAssignment? "stage_code"
      ("sprite".toList ++ ' ' :: '=' :: ' ' :: (Token.format name).toList) = none :=
    afterAssignment?_eq_none (List.all_eq_true.1
      (by decide)) (.inr ⟨_, rfl⟩) (by decide) (by decide)
  rw [hline, parse?, hstage, hvalue, filter_token]
  show some (spriteName (String.ofList (Chars.unquote (Token.format name).toList))) = _
  rw [unquote_token]

/-- The line of a costume gives its source back. -/
theorem parse?_costume (source : String) :
    parse? ("svg = " ++ Token.format source).toList = some (.costume source) := by
  have hline : ("svg = " ++ Token.format source).toList =
      "svg".toList ++ ' ' :: '=' :: ' ' :: (Token.format source).toList := by simp
  have hvalue := afterAssignment?_self (by decide : "svg".toList.map foldLetter = "svg".toList)
    (Token.isWord_format source).head?_not_white
  have hnone : ∀ word ∈ assignments, word ≠ "svg" → afterAssignment? word
      ("svg".toList ++ ' ' :: '=' :: ' ' :: (Token.format source).toList) = none :=
    fun word hword hne ↦
      afterAssignment?_eq_none (List.all_eq_true.1 (by decide)) (.inr ⟨_, rfl⟩) hword fun heq ↦
        hne (String.toList_inj.1 (heq.symm.trans (by decide)))
  rw [hline, parse?, hnone "stage_code" (by decide) (by decide),
    hnone "sprite" (by decide) (by decide), hvalue, filter_token]
  show some (costume (String.ofList (Chars.unquote (Token.format source).toList))) = _
  rw [unquote_token]

/-! ### Sections -/

/-- The name in front of the end of a section header. -/
theorem spriteSection?_code (cs : List Char) :
    spriteSection? (cs ++ "_code =".toList) = sectionName? cs := by
  have hreverse : (cs ++ "_code =".toList).reverse =
      '=' :: ' ' :: ("edoc_".toList ++ cs.reverse) := by simp
  have hafter : afterWord? "edoc_".toList ("edoc_".toList ++ cs.reverse) = some cs.reverse := by
    rw [afterWord?, List.take_left, List.drop_left]
    rfl
  rw [spriteSection?, hreverse]
  show ((afterWord? "edoc_".toList ("edoc_".toList ++ cs.reverse)).map List.reverse).bind
    sectionName? = _
  rw [hafter]
  simp

theorem isNameChar_of_isHeaderChar {c : Char} (h : Listing.isHeaderChar c = true) :
    isNameChar c = true := by
  unfold Listing.isHeaderChar at h
  simp only [isNameChar, h, Bool.true_or]

theorem isWordChar_of_isHeaderChar {c : Char} (h : Listing.isHeaderChar c = true) :
    isWordChar c = true := by
  simp only [Listing.isHeaderChar, Bool.or_eq_true, beq_iff_eq] at h
  rcases h with (h | rfl) | rfl
  · simp [isWordChar, Chars.isPlain, h]
  · decide
  · decide

theorem foldLetter_of_isHeaderChar {c : Char} (h : Listing.isHeaderChar c = true) :
    foldLetter c = Text.asciiLowerChar c := by
  have hword := isWordChar_of_isHeaderChar h
  have hne : ∀ n, isWordChar (Char.ofNat n) = false → c.toNat ≠ n := by
    rintro n hn rfl
    rw [Char.ofNat_toNat, hword] at hn
    cases hn
  rw [foldLetter, if_neg (hne _ (by decide)), if_neg (hne _ (by decide))]

theorem sectionName?_plain {cs : List Char} (hne : cs ≠ [])
    (h : ∀ c ∈ cs, Listing.isHeaderChar c = true) : sectionName? cs = some cs := by
  obtain ⟨c, rest, rfl⟩ := List.exists_cons_of_ne_nil hne
  have hmark : isQuoteMark c = false := by
    have hord := isOrdinary_of_isWordChar (isWordChar_of_isHeaderChar (h c List.mem_cons_self))
    simp only [isOrdinary, Bool.and_eq_true, Bool.not_eq_true'] at hord
    exact hord.1.1.1
  have hall : (c :: rest).all isNameChar = true :=
    List.all_eq_true.2 fun d hd ↦ isNameChar_of_isHeaderChar (h d hd)
  simp only [sectionName?, hmark, hall]
  rfl

/-- Between quotes a section header is read as it stands, unless it holds another quote. -/
theorem sectionName?_quoted {cs : List Char} (hne : cs ≠ []) :
    sectionName? ('"' :: cs ++ ['"']) = if '"' ∈ cs then none else some cs := by
  have hlast : (cs ++ ['"']).getLast? = some '"' := by simp
  have hplain : ('"' :: (cs ++ ['"'])).all isNameChar = false := rfl
  rw [List.cons_append, sectionName?]
  simp only [hlast, List.dropLast_concat, hplain]
  by_cases hmem : '"' ∈ cs
  · simp [hmem]
  · simp [hmem, hne, isQuoteMark]

theorem escape_eq_self {cs : List Char} (hback : '\\' ∉ cs) (hquote : '"' ∉ cs) :
    Chars.escape cs = cs := by
  induction cs with
  | nil => rfl
  | cons c cs ih =>
    rw [List.mem_cons, not_or] at hback hquote
    rw [Chars.escape_cons, ih hback.2 hquote.2]
    simp [Ne.symm hback.1, Ne.symm hquote.1]

theorem mem_escape_of_mem {c : Char} {cs : List Char} (h : c ∈ cs) : c ∈ Chars.escape cs := by
  refine List.mem_flatMap.2 ⟨c, h, ?_⟩
  split <;> simp

/-- A name that the header of its section gives back, or of which that header is no header. -/
def IsSafe (name : String) : Prop :=
  '"' ∈ name.toList ∨ '\\' ∉ name.toList ∧ Text.asciiLower name ≠ "stage"

instance (name : String) : Decidable (IsSafe name) :=
  inferInstanceAs (Decidable (_ ∨ _))

/-- A line that starts with a quote is no assignment. -/
theorem parse?_quote (cs : List Char) :
    parse? ('"' :: cs) = (spriteSection? ('"' :: cs)).map fun name ↦
      .spriteCode (String.ofList name) := by
  have hnone : ∀ word ∈ assignments, afterAssignment? word ('"' :: cs) = none := by
    intro word hword
    have hafter : afterWord? word.toList ('"' :: cs) = none := by
      have hhead : ∀ word ∈ assignments, word.toList.head? = some 's' ∧ word.toList.length ≠ 0 := by
        decide
      obtain ⟨hs, hlength⟩ := hhead word hword
      obtain ⟨k, hk⟩ := Nat.exists_eq_succ_of_ne_zero hlength
      rw [afterWord?, if_neg]
      rw [beq_iff_eq, hk, List.take_succ_cons, List.map_cons]
      intro heq
      rw [← heq, List.head?_cons] at hs
      exact absurd (Option.some.inj hs) (by decide)
    rw [afterAssignment?, hafter]
    rfl
  rw [parse?, hnone "stage_code" (by decide), hnone "sprite" (by decide), hnone "svg" (by decide)]
  rfl

section

variable {name : String}

/-- How the header of a section is written. -/
theorem codeHeader_cases (h : Text.isProper name = true) :
    ((∀ c ∈ name.toList, Listing.isHeaderChar c = true) ∧
      (Listing.codeHeader name ++ " =").toList = name.toList ++ "_code =".toList) ∨
    (¬(∀ c ∈ name.toList, Listing.isHeaderChar c = true) ∧
      (Listing.codeHeader name ++ " =").toList =
      ('"' :: Chars.escape name.toList ++ ['"']) ++ "_code =".toList) := by
  unfold Listing.codeHeader
  rw [Text.nameOr_of_isProper h]
  by_cases hplain : name.toList.all Listing.isHeaderChar = true
  · refine .inl ⟨List.all_eq_true.1 hplain, ?_⟩
    rw [if_pos hplain]
    simp
  · refine .inr ⟨fun hall ↦ hplain (List.all_eq_true.2 hall), ?_⟩
    rw [if_neg hplain]
    simp

/-- The header of a section gives a name back that needs no escapes and is not that of the stage. -/
theorem parse?_codeHeader (h : Text.isProper name = true) (hquote : '"' ∉ name.toList)
    (hback : '\\' ∉ name.toList) (hstage : Text.asciiLower name ≠ "stage") :
    parse? (Listing.codeHeader name ++ " =").toList = some (.spriteCode name) := by
  have hne : name.toList ≠ [] := by
    simpa using (Text.isProper_iff.1 h).2
  rcases codeHeader_cases h with ⟨hplain, hline⟩ | ⟨-, hline⟩
  · have hsplit : name.toList ++ "_code =".toList = (name.toList ++ "_code".toList) ++
      " =".toList := by
      simp
    have hparse : parse? ((name.toList ++ "_code".toList) ++ " =".toList) =
        (spriteSection? ((name.toList ++ "_code".toList) ++ " =".toList)).map fun name ↦
          .spriteCode (String.ofList name) := by
      refine parse?_eq_spriteSection (fun c hc ↦ ?_) (.inr ⟨['='], rfl⟩) fun word hword heq ↦ ?_
      · rcases List.mem_append.1 hc with hc | hc
        · exact isWordChar_of_isHeaderChar (hplain c hc)
        · exact List.all_eq_true.1 (by decide : "_code".toList.all isWordChar = true) c hc
      · -- of the words in front of an assignment only one ends like the header of a section
        rw [List.map_append, show "_code".toList.map foldLetter = "_code".toList by decide] at heq
        have hsuffix : "_code".toList <:+ word.toList := ⟨_, heq⟩
        have honly : ∀ word ∈ assignments, "_code".toList <:+ word.toList →
          word = "stage_code" := by
          decide
        obtain rfl := honly word hword hsuffix
        have hletters : name.toList.map foldLetter = "stage".toList :=
          List.append_cancel_right (heq.trans (by decide : "stage_code".toList =
            "stage".toList ++ "_code".toList))
        rw [List.map_congr_left fun c hc ↦ foldLetter_of_isHeaderChar (hplain c hc)] at hletters
        refine hstage (String.toList_inj.1 ?_)
        rw [Text.asciiLower, String.toList_ofList, hletters]
    rw [hline, hsplit, hparse, ← hsplit, spriteSection?_code, sectionName?_plain hne hplain]
    simp
  · rw [hline, List.cons_append, List.cons_append, parse?_quote, ← List.cons_append,
      ← List.cons_append, spriteSection?_code, escape_eq_self hback hquote, sectionName?_quoted hne,
      if_neg hquote]
    simp

/-- The header of a section whose name holds a quote is not taken for a header. -/
theorem parse?_codeHeader_quote (h : Text.isProper name = true) (hquote : '"' ∈ name.toList) :
    parse? (Listing.codeHeader name ++ " =").toList = none := by
  rcases codeHeader_cases h with ⟨hplain, -⟩ | ⟨-, hline⟩
  · exact absurd (hplain _ hquote) (by decide)
  · have hne : Chars.escape name.toList ≠ [] := List.ne_nil_of_mem (mem_escape_of_mem hquote)
    rw [hline, List.cons_append, List.cons_append, parse?_quote, ← List.cons_append,
      ← List.cons_append, spriteSection?_code, sectionName?_quoted hne,
      if_pos (mem_escape_of_mem hquote)]
    rfl

theorem trim_codeHeader (h : Text.isProper name = true) :
    Chars.trim (Listing.codeHeader name ++ " =").toList =
      (Listing.codeHeader name ++ " =").toList := by
  have hlast : ∀ cs : List Char, ∀ c ∈ (cs ++ "_code =".toList).getLast?,
    Text.isWhite c = false := by
    intro cs c hc
    have hequals : (cs ++ "_code =".toList).getLast? = some '=' := by simp [List.getLast?_append]
    rw [hequals] at hc
    obtain rfl := Option.some.inj hc
    decide
  rcases codeHeader_cases h with ⟨hplain, hline⟩ | ⟨-, hline⟩
  · rw [hline]
    refine Chars.trim_eq_self (fun c hc ↦ ?_) (hlast _)
    obtain ⟨d, rest, hcons⟩ := List.exists_cons_of_ne_nil
      (by simpa using (Text.isProper_iff.1 h).2 : name.toList ≠ [])
    rw [hcons] at hc hplain
    obtain rfl := Option.some.inj hc
    exact not_isWhite_of_isWordChar (isWordChar_of_isHeaderChar (hplain d List.mem_cons_self))
  · rw [hline]
    refine Chars.trim_eq_self (fun c hc ↦ ?_) (hlast _)
    obtain rfl := Option.some.inj hc
    decide

end

/-! ### Lines of scripts -/

/-- The word is an identifier that neither makes an assignment nor ends like the header of a
section. -/
structure IsLead (word : String) : Prop where
  identifier : Chars.isIdentifier word.toList = true
  assignment : ∀ other ∈ assignments, word.toList.map foldLetter ≠ other.toList
  code : ¬"_code".toList <:+ word.toList.map foldLetter

instance (word : String) : Decidable (IsLead word) :=
  decidable_of_iff (Chars.isIdentifier word.toList = true ∧
    (∀ other ∈ assignments, word.toList.map foldLetter ≠ other.toList) ∧
    ¬"_code".toList <:+ word.toList.map foldLetter)
    ⟨fun ⟨h₁, h₂, h₃⟩ ↦ ⟨h₁, h₂, h₃⟩, fun h ↦ ⟨h.1, h.2, h.3⟩⟩

theorem builtin_isLead {word : String} (h : word ∈ Catalog.builtin.leads) : word = "#" ∨
    IsLead word := by
  have hwords : ∀ word ∈ ["#", "define", "call", "else", "end", "make_var", "make_list",
      "make_broadcast"], word = "#" ∨ IsLead word := by decide +kernel
  have hnames : ∀ c ∈ Catalog.builtinCommands, IsLead c.name := by decide +kernel
  rcases List.mem_append.1 h with h | h
  · exact hwords word h
  · obtain ⟨c, hc, rfl⟩ := List.mem_map.1 h
    exact .inr (hnames c (Catalog.mem_builtinCommands hc))

/-- The parts of the header of a section. -/
theorem exists_of_spriteSection? {cs name : List Char} (h : spriteSection? cs = some name) :
    ∃ front code white, cs = front ++ code ++ (white ++ ['=']) ∧
      code.map foldLetter = "_code".toList ∧ (∀ c ∈ white, Text.isWhite c = true) ∧
      sectionName? front = some name := by
  unfold spriteSection? at h
  split at h
  · next rest hreverse =>
    -- the header was read from its end, so its parts come back in reverse
    obtain ⟨front, hfront, hname⟩ := Option.bind_eq_some_iff.1 h
    obtain ⟨back, hback, rfl⟩ := Option.map_eq_some_iff.1 hfront
    unfold afterWord? at hback
    split at hback
    · next hcode =>
      obtain rfl := Option.some.inj hback
      have hcode := eq_of_beq hcode
      have hparts : rest = rest.takeWhile Text.isWhite ++
          ((Chars.trimStart rest).take 5 ++ (Chars.trimStart rest).drop 5) := by
        rw [List.take_append_drop, Chars.trimStart, List.takeWhile_append_dropWhile]
      refine ⟨_, ((Chars.trimStart rest).take 5).reverse, (rest.takeWhile Text.isWhite).reverse,
        ?_, ?_, fun c hc ↦ ?_, hname⟩
      · have hcs : cs = ('=' :: rest).reverse := by rw [← hreverse, List.reverse_reverse]
        rw [hcs, List.reverse_cons]
        conv_lhs => rw [hparts]
        simp only [List.reverse_append, List.append_assoc]
        rfl
      · rw [List.map_reverse]
        exact congrArg List.reverse hcode
      · have hall := List.all_takeWhile (p := Text.isWhite) (l := rest)
        exact List.all_eq_true.1 hall c (List.mem_reverse.1 hc)
    · cases hback
  · cases h

theorem foldLetter_of_isWhite {c : Char} (h : Text.isWhite c = true) : foldLetter c = c := by
  have hrange : c.toNat ≠ 0x17F ∧ c.toNat ≠ 0x212A ∧ ¬(65 ≤ c.toNat ∧ c.toNat ≤ 90) := by
    simp only [Text.isWhite, Bool.or_eq_true, Bool.and_eq_true, decide_eq_true_eq, beq_iff_eq] at h
    omega
  have hletter : ¬('A' ≤ c ∧ c ≤ 'Z') := by
    rintro ⟨hfirst, hlast⟩
    exact hrange.2.2 ⟨UInt32.le_iff_toNat_le.1 hfirst, UInt32.le_iff_toNat_le.1 hlast⟩
  rw [foldLetter, if_neg hrange.1, if_neg hrange.2.1, Text.asciiLowerChar, if_neg hletter]

theorem not_isWhite_of_isNameChar {c : Char} (h : isNameChar c = true) :
    Text.isWhite c = false := by
  simp only [isNameChar, Bool.or_eq_true, decide_eq_true_eq] at h
  rcases h with (h | h) | h
  · refine not_isWhite_of_isWordChar (isWordChar_of_isHeaderChar ?_)
    simpa only [Listing.isHeaderChar, Bool.or_eq_true] using h
  · simp [Text.isWhite, h]
  · simp [Text.isWhite, h]

/-- The name of a section that is not in quotes holds no white space. -/
theorem not_isWhite_of_sectionName? {c : Char} {cs name : List Char}
    (h : sectionName? (c :: cs) = some name) (hmark : isQuoteMark c = false) :
    ∀ d ∈ c :: cs, Text.isWhite d = false := by
  simp only [sectionName?, hmark, Bool.false_and, Bool.false_eq_true, if_false] at h
  split at h
  · next hall => exact fun d hd ↦ not_isWhite_of_isNameChar (List.all_eq_true.1 hall d hd)
  · cases h

/-- The characters that the word `_code` may be written with are not white. -/
theorem not_isWhite_of_fold_code {code : List Char} (h : code.map foldLetter = "_code".toList)
    {c : Char} (hc : c ∈ code) : Text.isWhite c = false := by
  by_contra hne
  have hfold := foldLetter_of_isWhite (by simpa using hne : Text.isWhite c = true)
  have hmem : c ∈ "_code".toList := h ▸ hfold ▸ List.mem_map_of_mem hc
  have hall : "_code".toList.all isWordChar = true := by decide
  exact hne (not_isWhite_of_isWordChar (List.all_eq_true.1 hall c hmem))

/-- A line that starts with such a word opens no section. -/
theorem spriteSection?_of_isLead {word : String} (hword : IsLead word) {tail : List Char}
    (htail : tail = [] ∨ ∃ more, tail = ' ' :: more) :
    spriteSection? (word.toList ++ tail) = none := by
  have hchars := Chars.isWordChar_of_identifier hword.identifier
  have hequals : '=' ∉ word.toList := fun hmem ↦ absurd (hchars _ hmem) (by decide)
  obtain ⟨first, others, hcons, -, hmark⟩ := Chars.head?_identifier hword.identifier
  rw [Option.eq_none_iff_forall_ne_some]
  intro name hsection
  obtain ⟨front, code, white, hparts, hcode, hwhite, hname⟩ := exists_of_spriteSection? hsection
  rcases htail with rfl | ⟨more, rfl⟩
  · -- a single word does not end in an equals sign
    rw [List.append_nil] at hparts
    exact hequals (hparts ▸ by simp)
  · -- what stands before the first white space is the word, and it would have to end in `_code`
    have hfront : ∀ c ∈ front, Text.isWhite c = false := by
      cases front with
      | nil => cases hname
      | cons c rest =>
        rw [hcons] at hparts
        obtain rfl : first = c := (List.cons.inj hparts).1
        exact not_isWhite_of_sectionName? hname hmark
    have hleft : (word.toList ++ ' ' :: more).takeWhile (!Text.isWhite ·) = word.toList := by
      rw [List.takeWhile_append_of_pos fun c hc ↦ by simp [not_isWhite_of_isWordChar (hchars c hc)]]
      simp [Text.isWhite]
    have hright : (front ++ code ++ (white ++ ['='])).takeWhile (!Text.isWhite ·) =
        front ++ code ++ (white ++ ['=']).takeWhile (!Text.isWhite ·) := by
      refine List.takeWhile_append_of_pos fun c hc ↦ ?_
      rcases List.mem_append.1 hc with hc | hc
      · simp [hfront c hc]
      · simp [not_isWhite_of_fold_code hcode hc]
    rw [hparts, hright] at hleft
    cases white with
    | nil => exact hequals (hleft ▸ by simp [Text.isWhite])
    | cons w ws =>
      rw [List.cons_append, List.takeWhile_cons_of_neg (by simp [hwhite w List.mem_cons_self]),
        List.append_nil] at hleft
      exact hword.code ⟨front.map foldLetter, by rw [← hcode, ← List.map_append, hleft]⟩

/-- No line of a script is a header. -/
theorem parse?_of_isLine {line : String} (h : Listing.IsLine .builtin line) :
    (Chars.trim line.toList).head? = some '#' ∨ parse? (Chars.trim line.toList) = none := by
  obtain ⟨depth, word, words, rfl, hlead, -⟩ := h
  rcases builtin_isLead hlead with rfl | hword
  · have hmark : "#".toList.all isWordChar = true := by decide
    obtain ⟨tail, -, htrim⟩ :=
      Listing.exists_trim_commandLine (List.all_eq_true.1 hmark) (by decide) depth words
    exact .inl (by rw [htrim]; rfl)
  · have hchars := Chars.isWordChar_of_identifier hword.identifier
    obtain ⟨tail, htail, htrim⟩ :=
      Listing.exists_trim_commandLine hchars (Chars.isWord_identifier hword.identifier).ne_nil depth
        words
    right
    rw [htrim, parse?_eq_spriteSection hchars htail hword.assignment,
      spriteSection?_of_isLead hword htail]
    rfl

end Header

end BlockScript
