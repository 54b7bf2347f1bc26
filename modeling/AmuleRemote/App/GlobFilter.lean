import AmuleRemote.App.Anchoring
import AmuleRemote.Lib.Glob

/-!
# Globs in the result filter

The filtering half of `searchfilterproxy.cpp`. A filter text is a regular expression,
a glob that is translated into one, or a part of the name; the last also where the
expression is not valid.

Qt's expressions and its comparison of names are the class `RegexEngine`, and
`LawfulRegexEngine` what is documented of them: a pattern that `Regex.Syntax` reads is
valid and searches as it is read, case aside, and text that is not well-formed UTF-16
is no pattern.
-/

namespace Amule

/-- What the filter asks of Qt. Expressions are compiled with `CaseInsensitiveOption`. -/
class RegexEngine where
  /-- `QRegularExpression::isValid` -/
  isValid : (pattern : QString) → Bool
  /-- `QRegularExpression::match(subject).hasMatch()` -/
  hasMatch : (pattern subject : QString) → Bool
  /-- `QString::contains(text, Qt::CaseInsensitive)` -/
  contains : (s text : QString) → Bool
  /-- Characters that are the same but for their case, and the newlines of the engine. -/
  reading : Regex.Reading Char

/-- The characters that break lines. -/
def isLineBreak (c : Char) : Bool :=
  c.toNat ∈ [0x0A, 0x0B, 0x0C, 0x0D, 0x85, 0x2028, 0x2029]

/-- Qt's expressions as far as `Regex.Syntax` reads them. -/
class LawfulRegexEngine [RegexEngine] : Prop where
  isValid_of_parse : ∀ pattern r, Utf8.wellFormed pattern = true →
    Regex.Syntax.parse (Utf8.chars pattern) = some r → RegexEngine.isValid pattern = true
  /-- The subject has no line break of two characters. -/
  hasMatch_iff : ∀ pattern subject r, Utf8.wellFormed pattern = true →
    Utf8.wellFormed subject = true → ¬['\r', '\n'] <:+: Utf8.chars subject →
    Regex.Syntax.parse (Utf8.chars pattern) = some r →
    (RegexEngine.hasMatch pattern subject = true ↔
      Regex.Searches RegexEngine.reading (Utf8.chars subject) r)
  not_isValid : ∀ pattern, Utf8.wellFormed pattern = false → RegexEngine.isValid pattern = false
  isLineBreak_of_newline : ∀ c, RegexEngine.reading.newline c = true → isLineBreak c = true
  same_ascii : ∀ c d, c.toNat < 0x80 → d.toNat < 0x80 →
    (RegexEngine.reading.same c d = true ↔ c.toLower = d.toLower)

structure SearchFilter where
  text : QString := []
  negate : Bool := false
  glob : Bool := false
  regex : Bool := false
  onlyComplete : Bool := false
  minSources : UInt64 := 0
  maxSources : UInt64 := 0

/-- The characters that `globToRegex` escapes. -/
def globSpecials : QString := .lit ".+()|[]\x7b\x7d^$\\"

/-- What `globToRegex` appends for a unit of the glob. -/
def globUnit (ch : UInt16) : QString :=
  if ch = 0x2A then .lit ".*"
  else if ch = 0x3F then .lit "."
  else if ch ∈ globSpecials then [0x5C, ch]
  else [ch]

def globToRegex (glob : QString) : QString :=
  QString.lit "^" ++ glob.flatMap globUnit ++ QString.lit "$"

def SearchResultModel.resultAt (m : SearchResultModel) (row : ℕ) : SearchResult :=
  m.results.getD row {}

/-- What `SearchResultFilterProxy` filters by. The expression is kept as its pattern. -/
structure ResultFilter where
  filter : SearchFilter := {}
  pattern : QString := []
  usePattern : Bool := false

namespace ResultFilter

variable [RegexEngine]

def setSearchFilter (p : ResultFilter) (filter : SearchFilter) : ResultFilter :=
  let text := filter.text.trimmed
  if !text.isEmpty && (filter.regex || filter.glob) then
    let expr := if filter.regex then text else globToRegex text
    { filter
      pattern := expr
      usePattern := RegexEngine.isValid expr }
  else
    { p with
      filter
      usePattern := false }

/-- A result has the sources that are asked for. -/
def sourcesAccepted (filter : SearchFilter) (r : SearchResult) : Bool :=
  !(filter.onlyComplete && r.completeSourceCount = 0) &&
    !(0 < filter.minSources && r.sourceCount < filter.minSources) &&
    !(0 < filter.maxSources && filter.maxSources < r.sourceCount)

def filterAcceptsRow (p : ResultFilter) (sourceModel : Option SearchResultModel)
    (sourceRow : ℕ) : Bool :=
  match sourceModel with
  | none => true
  | some model =>
    let r := model.resultAt sourceRow
    if !sourcesAccepted p.filter r then false
    else
      let text := p.filter.text.trimmed
      if !text.isEmpty then
        let found :=
          if p.usePattern then RegexEngine.hasMatch p.pattern r.name
          else RegexEngine.contains r.name text
        if p.filter.negate then !found else found
      else true

end ResultFilter

/-! ## The pattern of a glob -/

theorem char_eq_iff {c : UInt16} (hh : Utf8.isHigh c = false) (hl : Utf8.isLow c = false)
    {x : Char} (hx : x.toNat < 2 ^ 16) : Char.ofNat c.toNat = x ↔ c = .ofNat x.toNat := by
  rw [← Char.toNat_inj, Utf8.toNat_char (Utf8.isScalar_unit hh hl), ← UInt16.toNat_inj,
    UInt16.toNat_ofNat', Nat.mod_eq_of_lt hx]

theorem toNat_lt_of_mem_metaChars {x : Char} (hx : x ∈ Regex.Syntax.metaChars) :
    x.toNat < 0x80 := by
  have hall : (Regex.Syntax.metaChars.all fun x => x.toNat < 0x80) = true := by decide
  exact of_decide_eq_true (List.all_eq_true.mp hall x hx)

/-- The units that `globToRegex` escapes are the characters that mean something in a pattern. -/
theorem mem_metaChars_iff {c : UInt16} (hh : Utf8.isHigh c = false) (hl : Utf8.isLow c = false) :
    Char.ofNat c.toNat ∈ Regex.Syntax.metaChars ↔ c = 0x2A ∨ c = 0x3F ∨ c ∈ globSpecials := by
  have hlt {x : Char} (hx : x ∈ Regex.Syntax.metaChars) : x.toNat < 2 ^ 16 :=
    (toNat_lt_of_mem_metaChars hx).trans (by decide)
  have hunits : c ∈ Regex.Syntax.metaChars.map (fun x => UInt16.ofNat x.toNat) ↔
      c = 0x2A ∨ c = 0x3F ∨ c ∈ globSpecials := by
    have hperm : (Regex.Syntax.metaChars.map fun x => UInt16.ofNat x.toNat).Perm
        (0x2A :: 0x3F :: globSpecials) := by decide
    rw [hperm.mem_iff, List.mem_cons, List.mem_cons]
  rw [← hunits, List.mem_map]
  constructor
  · intro hx
    exact ⟨_, hx, ((char_eq_iff hh hl (hlt hx)).mp rfl).symm⟩
  · rintro ⟨x, hx, hc⟩
    exact (char_eq_iff hh hl (hlt hx)).mpr hc.symm ▸ hx

/-- A unit that is a character is written as this character is. -/
theorem map_globUnit {c : UInt16} (hh : Utf8.isHigh c = false) (hl : Utf8.isLow c = false) :
    (globUnit c).map (fun u => Char.ofNat u.toNat) = Glob.escaped (Char.ofNat c.toNat) := by
  have hstar : Char.ofNat c.toNat = '*' ↔ c = 0x2A := char_eq_iff hh hl (by decide)
  have hquestion : Char.ofNat c.toNat = '?' ↔ c = 0x3F := char_eq_iff hh hl (by decide)
  have hmeta := mem_metaChars_iff hh hl
  rw [globUnit, Glob.escaped]
  by_cases h1 : c = 0x2A
  · rw [if_pos h1, if_pos (hstar.mpr h1)]
    rfl
  · rw [if_neg h1, if_neg (mt hstar.mp h1)]
    by_cases h2 : c = 0x3F
    · rw [if_pos h2, if_pos (hquestion.mpr h2)]
      rfl
    · rw [if_neg h2, if_neg (mt hquestion.mp h2)]
      by_cases h3 : c ∈ globSpecials
      · rw [if_pos h3, if_pos (hmeta.mpr (.inr (.inr h3)))]
        rfl
      · rw [if_neg h3, if_neg (by simp [hmeta, h1, h2, h3])]
        rfl

/-- Of a text without surrogates every unit is a character. -/
theorem plain_of_mem {s : QString} {u : UInt16} (hu : u ∈ s)
    (hs : (s.all fun u => !Utf8.isHigh u && !Utf8.isLow u) = true) :
    Utf8.isHigh u = false ∧ Utf8.isLow u = false := by
  simpa using List.all_eq_true.mp hs u hu

theorem globUnit_plain {c : UInt16} (hh : Utf8.isHigh c = false) (hl : Utf8.isLow c = false) :
    ∀ u ∈ globUnit c, Utf8.isHigh u = false ∧ Utf8.isLow u = false := by
  intro u hu
  have hu : u = c ∨ u ∈ QString.lit ".*\\" := by
    rw [globUnit] at hu
    split at hu
    · exact .inr (List.mem_append_left [0x5C] hu)
    · split at hu
      · exact .inr (List.mem_append_left [0x2A, 0x5C] hu)
      · split at hu
        · rcases List.mem_cons.mp hu with rfl | hu
          · exact .inr (by decide)
          · exact .inl (List.mem_singleton.mp hu)
        · exact .inl (List.mem_singleton.mp hu)
  rcases hu with rfl | hu
  · exact ⟨hh, hl⟩
  · exact plain_of_mem hu (by decide)

/-- A surrogate is nothing that `globToRegex` looks at. -/
theorem globUnit_surrogate {c : UInt16} (h : 0xD800 ≤ c.toNat) : globUnit c = [c] := by
  have hall : ((0x2A :: 0x3F :: globSpecials).all fun u => u.toNat < 0xD800) = true := by decide
  have hne : c ∉ 0x2A :: 0x3F :: globSpecials := fun hc => by
    have hlt := of_decide_eq_true (List.all_eq_true.mp hall c hc)
    omega
  simp only [List.mem_cons, not_or] at hne
  rw [globUnit, if_neg hne.1, if_neg hne.2.1, if_neg hne.2.2]

theorem escaped_of_le {c : Char} (h : 0x10000 ≤ c.toNat) : Glob.escaped c = [c] := by
  have hmem : c ∉ Regex.Syntax.metaChars := fun hc => by
    have hlt := toNat_lt_of_mem_metaChars hc
    omega
  have hstar : c ≠ '*' := fun hc => hmem (hc ▸ by decide)
  have hquestion : c ≠ '?' := fun hc => hmem (hc ▸ by decide)
  rw [Glob.escaped, if_neg hstar, if_neg hquestion, if_neg hmem]

theorem chars_tail {glob : QString} (h : Utf8.wellFormed glob = true) :
    Utf8.chars (glob.flatMap globUnit ++ QString.lit "$") =
        (Utf8.chars glob).flatMap Glob.escaped ++ ['$'] ∧
      Utf8.wellFormed (glob.flatMap globUnit ++ QString.lit "$") = true := by
  refine Utf8.wellFormed_induction (P := fun glob =>
    Utf8.chars (glob.flatMap globUnit ++ QString.lit "$") =
        (Utf8.chars glob).flatMap Glob.escaped ++ ['$'] ∧
      Utf8.wellFormed (glob.flatMap globUnit ++ QString.lit "$") = true)
    ⟨rfl, rfl⟩ ?_ ?_ glob h
  · intro c s hh hl _ ih
    obtain ⟨hchars, hwell⟩ := Utf8.chars_append (globUnit_plain hh hl)
      (s.flatMap globUnit ++ QString.lit "$")
    rw [List.flatMap_cons, List.append_assoc, hchars, hwell, map_globUnit hh hl, ih.1,
      Utf8.chars_unit hh, List.flatMap_cons, List.append_assoc]
    exact ⟨rfl, ih.2⟩
  · intro c d s hh hl _ ih
    have hc := (Utf8.isHigh_iff.mp hh).1
    have hd := (Utf8.isLow_iff.mp hl).1
    have hbig : 0x10000 ≤ Utf8.pairScalar c d := by
      unfold Utf8.pairScalar
      omega
    have hpair := hbig.trans_eq (Utf8.toNat_char (Utf8.isScalar_pair hh hl)).symm
    rw [List.flatMap_cons, List.flatMap_cons, globUnit_surrogate hc, globUnit_surrogate (by omega),
      List.append_assoc, List.append_assoc, List.singleton_append, List.singleton_append,
      Utf8.chars_pair hh hl, Utf8.wellFormed_pair hh hl, ih.1, Utf8.chars_pair hh hl,
      List.flatMap_cons, escaped_of_le hpair]
    exact ⟨rfl, ih.2⟩

/-- The characters of the pattern are the pattern of the characters. -/
theorem chars_globToRegex {glob : QString} (h : Utf8.wellFormed glob = true) :
    Utf8.chars (globToRegex glob) = Glob.pattern (Utf8.chars glob) ∧
      Utf8.wellFormed (globToRegex glob) = true := by
  obtain ⟨htail, hwell⟩ := chars_tail h
  have hcaret : ∀ c ∈ QString.lit "^", Utf8.isHigh c = false ∧ Utf8.isLow c = false :=
    fun c hc => plain_of_mem hc (by decide)
  have happend := Utf8.chars_append hcaret (glob.flatMap globUnit ++ QString.lit "$")
  rw [globToRegex, List.append_assoc, happend.1, happend.2, htail]
  exact ⟨rfl, hwell⟩

theorem parse_globToRegex {glob : QString} (h : Utf8.wellFormed glob = true) :
    Regex.Syntax.parse (Utf8.chars (globToRegex glob)) =
      some (Glob.regex ((Utf8.chars glob).map Glob.piece)) := by
  rw [(chars_globToRegex h).1, Glob.parse_pattern]

/-! ## Filtering by a glob -/

/-- Well-formed text on one line. -/
def OneLine (name : QString) : Prop :=
  Utf8.wellFormed name = true ∧ (Utf8.chars name).any isLineBreak = false

instance decidableOneLine (name : QString) : Decidable (OneLine name) :=
  inferInstanceAs (Decidable (_ ∧ _))

section

variable [RegexEngine]

/-- The whole name is what the glob stands for, up to case. -/
def GlobMatches (glob name : QString) : Prop :=
  Glob.Matches RegexEngine.reading.same ((Utf8.chars glob).map Glob.piece) (Utf8.chars name)

namespace ResultFilter

/-- With an expression in use a result is accepted if its sources are, and if its name matches
    or, negated, does not. -/
theorem filterAcceptsRow_pattern {filter : SearchFilter} (pattern : QString)
    (hne : filter.text.trimmed ≠ []) (model : SearchResultModel) (row : ℕ) :
    (ResultFilter.mk filter pattern true).filterAcceptsRow (some model) row = true ↔
      sourcesAccepted filter (model.resultAt row) = true ∧
        (RegexEngine.hasMatch pattern (model.resultAt row).name = true ↔
          filter.negate = false) := by
  have htext : (!filter.text.trimmed.isEmpty) = true := by simpa using hne
  simp only [filterAcceptsRow, htext, if_true]
  cases sourcesAccepted filter (model.resultAt row) <;> cases filter.negate <;>
    cases RegexEngine.hasMatch pattern (model.resultAt row).name <;> simp

end ResultFilter

variable [LawfulRegexEngine]

theorem isValid_globToRegex {glob : QString} (h : Utf8.wellFormed glob = true) :
    RegexEngine.isValid (globToRegex glob) = true :=
  LawfulRegexEngine.isValid_of_parse _ _ (chars_globToRegex h).2 (parse_globToRegex h)

theorem hasMatch_globToRegex_iff {glob name : QString} (h : Utf8.wellFormed glob = true)
    (hname : OneLine name) :
    RegexEngine.hasMatch (globToRegex glob) name = true ↔ GlobMatches glob name := by
  obtain ⟨hwell, hany⟩ := hname
  have hline : ∀ c ∈ Utf8.chars name, isLineBreak c = false := fun c hc =>
    Bool.eq_false_iff.mpr (List.any_eq_false.mp hany c hc)
  have hbreak : ¬['\r', '\n'] <:+: Utf8.chars name := fun hcrlf =>
    absurd (hline '\n' (hcrlf.subset (by simp))) (by decide)
  have hnewline : ∀ c ∈ Utf8.chars name, RegexEngine.reading.newline c = false := fun c hc =>
    Bool.eq_false_iff.mpr fun hc' =>
      absurd (LawfulRegexEngine.isLineBreak_of_newline c hc') (by simp [hline c hc])
  rw [LawfulRegexEngine.hasMatch_iff _ _ _ (chars_globToRegex h).2 hwell hbreak
    (parse_globToRegex h), Glob.searches_regex hnewline, GlobMatches]

namespace ResultFilter

/-- A glob is turned into its expression, which is used. -/
theorem setSearchFilter_glob (p : ResultFilter) {filter : SearchFilter}
    (hglob : filter.glob = true) (hregex : filter.regex = false)
    (hwell : Utf8.wellFormed filter.text.trimmed = true) (hne : filter.text.trimmed ≠ []) :
    p.setSearchFilter filter = ⟨filter, globToRegex filter.text.trimmed, true⟩ := by
  have hcond : (!filter.text.trimmed.isEmpty && (filter.regex || filter.glob)) = true := by
    simpa [hglob] using hne
  rw [setSearchFilter, if_pos hcond, hregex, if_neg Bool.false_ne_true]
  simp only [isValid_globToRegex hwell]

/-- The pattern of a well-formed glob is valid and matches the names on one line that the glob
    matches as a whole, and these are the names that a filter by the glob is about. -/
theorem glob_filter {glob : QString} (hglob : Utf8.wellFormed glob = true) :
    RegexEngine.isValid (globToRegex glob) = true ∧
      (∀ name, OneLine name →
        (RegexEngine.hasMatch (globToRegex glob) name = true ↔ GlobMatches glob name)) ∧
      ∀ (p : ResultFilter) (filter : SearchFilter), filter.glob = true → filter.regex = false →
        filter.text.trimmed = glob → glob ≠ [] →
          (p.setSearchFilter filter).usePattern = true ∧
            ∀ (model : SearchResultModel) (row : ℕ), OneLine (model.resultAt row).name →
              ((p.setSearchFilter filter).filterAcceptsRow (some model) row = true ↔
                sourcesAccepted filter (model.resultAt row) = true ∧
                  (GlobMatches glob (model.resultAt row).name ↔ filter.negate = false)) := by
  refine ⟨isValid_globToRegex hglob, fun name hname => hasMatch_globToRegex_iff hglob hname, ?_⟩
  rintro p filter hon hregex rfl hne
  rw [p.setSearchFilter_glob hon hregex hglob hne]
  refine ⟨rfl, fun model row hname => ?_⟩
  rw [filterAcceptsRow_pattern _ hne, hasMatch_globToRegex_iff hglob hname]

end ResultFilter

end

/-- An engine for closed examples: the patterns that `Regex.Syntax` reads, and ASCII case. -/
abbrev sampleRegexEngine : RegexEngine :=
  let reading : Regex.Reading Char := ⟨fun c d => c.toLower = d.toLower, fun c => c = '\n'⟩
  { isValid := fun pattern =>
      Utf8.wellFormed pattern && (Regex.Syntax.parse (Utf8.chars pattern)).isSome
    hasMatch := fun pattern subject =>
      match Regex.Syntax.parse (Utf8.chars pattern) with
      | some r => Regex.search reading (Utf8.chars subject) r
      | none => false
    contains := fun s text => text.map QString.lowerUnit <:+: s.map QString.lowerUnit
    reading }

theorem sampleRegexEngine_lawful : @LawfulRegexEngine sampleRegexEngine := by
  let _ : RegexEngine := sampleRegexEngine
  refine ⟨fun pattern r hwell hparse => ?_, fun pattern subject r _ _ _ hparse => ?_,
    fun pattern hwell => ?_, fun c hc => ?_, fun c d _ _ => decide_eq_true_iff⟩
  · change (Utf8.wellFormed pattern && (Regex.Syntax.parse (Utf8.chars pattern)).isSome) = true
    rw [hwell, hparse]
    rfl
  · change (match Regex.Syntax.parse (Utf8.chars pattern) with
      | some r => Regex.search RegexEngine.reading (Utf8.chars subject) r
      | none => false) = true ↔ _
    rw [hparse]
    exact Regex.search_iff
  · change (Utf8.wellFormed pattern && _) = false
    rw [hwell, Bool.false_and]
  · rw [of_decide_eq_true hc]
    rfl

namespace ResultFilter

theorem glob_filter_bracket :
    letI := sampleRegexEngine
    RegexEngine.isValid (globToRegex (.lit "[*")) = true ∧
      RegexEngine.hasMatch (globToRegex (.lit "[*")) (.lit "[a]") = true := by
  let _ : RegexEngine := sampleRegexEngine
  have := sampleRegexEngine_lawful
  have hwell : Utf8.wellFormed (QString.lit "[*") = true := by decide
  obtain ⟨hvalid, hmatch, -⟩ := glob_filter hwell
  exact ⟨hvalid, (hmatch (.lit "[a]") (by decide)).mpr (.char rfl (.many ['a', ']'] .nil))⟩

/-- Half a surrogate pair is no pattern, so the filter falls back to looking for it. -/
theorem not_valid_surrogate :
    letI := sampleRegexEngine
    LawfulRegexEngine ∧ RegexEngine.isValid (globToRegex [0xD800]) = false ∧
      (({} : ResultFilter).setSearchFilter { text := [0xD800], glob := true }).usePattern =
        false := by
  let _ : RegexEngine := sampleRegexEngine
  exact ⟨sampleRegexEngine_lawful, rfl, rfl⟩

end ResultFilter

end Amule
