import OpLang.Program
import OpLang.Proofs.Parser.Items

/-! # Reading programs

The parser is greedy: a variable in front of a parenthesis is always the name of a call, although
the grammar also lets a clause end there. Nothing is lost by this. A program that can be cut into
parts can be cut into separated ones, and over separated parts there is no other way to read.
-/

namespace OpLang

namespace Parser

open Grammar

variable {τ : Type} [TokenSource τ] {parser rest : Parser τ} {settings : Settings}

/-- Skipping passes semicolons and nothing else. -/
theorem skipSemicolons_passes (parser : Parser τ) :
    ∃ passed : List LocatedToken, Passes parser passed parser.skipSemicolons ∧
      ∀ token ∈ passed, token.token = .symbol ';' := by
  fun_induction skipSemicolons parser with
  | case1 parser current ih =>
    obtain ⟨passed, passes, semicolons⟩ := ih
    refine ⟨parser.here :: passed, .advance (by rw [current]; simp) passes, ?_⟩
    exact List.forall_mem_cons.mpr ⟨current, semicolons⟩
  | case2 parser _ => exact ⟨[], .stay parser, by simp⟩

theorem settings_skipSemicolons (parser : Parser τ) :
    parser.skipSemicolons.settings = parser.settings := by
  obtain ⟨_, passes, _⟩ := skipSemicolons_passes parser
  exact passes.settings_eq

theorem item?_of_semicolon (current : parser.current = .symbol ';') :
    parser.item? = parser.advance.item? := by
  rw [item?, skipSemicolons, if_pos current, item?]

theorem item?_of_other (other : parser.current ≠ .symbol ';') :
    parser.item? = parser.itemHere? := by
  rw [item?, skipSemicolons, if_neg other]

theorem attempts_item? (parser : Parser τ) : Attempts parser.skipSemicolons parser.item? :=
  attempts parser.skipSemicolons

/-- A property of parsers that outlasts reading on and entries in the log. -/
structure Keeps (holds : Parser τ → Prop) : Prop where
  advance : ∀ {parser}, holds parser → holds parser.advance
  log : ∀ {parser} (log : Array Event), holds parser → holds { parser with log }

namespace Keeps

variable {holds : Parser τ → Prop}

theorem passes {passed : List LocatedToken} (keeps : Keeps holds) (held : holds parser)
    (passes : Passes parser passed rest) : holds rest := by
  induction passes with
  | stay => exact held
  | advance _ _ ih => exact ih (keeps.advance held)
  | record event _ ih => exact ih (keeps.log _ held)

theorem item? {attempt : Option ItemResult} (keeps : Keeps holds) (held : holds parser)
    (read : parser.item? = (attempt, rest)) : holds rest := by
  obtain ⟨_, skips, _⟩ := skipSemicolons_passes parser
  have started := keeps.passes held skips
  have attempted := read ▸ attempts_item? parser
  cases attempted with
  | finished => exact started
  | parsed passes => exact keeps.passes started passes
  | rejected _ passes => exact keeps.passes started passes

end Keeps

theorem items_of_none {read : Array Item} (attempt : parser.item? = (none, rest)) :
    parser.items read = (⟨read, none⟩, rest) := by
  rw [items]
  split <;> simp_all

theorem items_of_ok {read : Array Item} {kind : ItemKind} {item : Item}
    (attempt : parser.item? = (some ⟨kind, .ok item⟩, rest)) :
    parser.items read = rest.items (read.push item) := by
  rw [items]
  split <;> simp_all

theorem items_of_error {read : Array Item} {kind : ItemKind} {error : ParseError}
    (attempt : parser.item? = (some ⟨kind, .error error⟩, rest)) :
    parser.items read = (⟨read, some error⟩, rest) := by
  rw [items]
  split <;> simp_all

theorem items_of_semicolon (read : Array Item) (current : parser.current = .symbol ';') :
    (parser.items read).1 = (parser.advance.items read).1 := by
  have same := item?_of_semicolon current
  rw [items, items]
  split <;> split <;> simp_all

/-- Separated parts are read one by one. -/
theorem items_of_parts (read : Array Item) (parser : Parser τ) {parts : List Part}
    (spared : parser.settings.operators.Spares ['(', ')', ',', ';'])
    (fits : ∀ part ∈ parts, part.Fits parser.settings) (separated : Separated parser.settings parts)
    (upcoming : parser.upcoming = programTokens parts) :
    ∃ all : Array Item, (parser.items read).1 = ⟨all, none⟩ ∧ all.toList =
      read.toList ++ parts.filterMap (Part.item? parser.settings.operators.strength) := by
  induction parts generalizing parser read with
  | nil =>
    have finished := upcoming_eq_nil_iff.mp upcoming
    have attempt : parser.item? = (none, parser) := by
      rw [item?_of_other (by simp [finished]), itemHere?, finished]
    exact ⟨read, by rw [items_of_none attempt], by simp⟩
  | cons part parts ih =>
    obtain ⟨partFits, partsFit⟩ := List.forall_mem_cons.mp fits
    cases part with
    | semicolon =>
      obtain ⟨_, current, behind⟩ := upcoming_eq_cons_iff.mp upcoming
      rw [items_of_semicolon read current]
      exact ih read parser.advance spared partsFit separated.2 behind
    | clause written =>
      have fewer : parser.settings.operators.Spares ['(', ')', ','] :=
        fun char member => spared char (List.mem_append_left [';'] member)
      obtain ⟨rest, restUpcoming, kept, attempt⟩ :=
        itemHere?_of_clause fewer partFits upcoming separated.1
      have other : parser.current ≠ .symbol ';' := by
        obtain ⟨token, others, first, notSemicolon⟩ := written.tokens_eq_cons
        rw [programTokens_cons, Part.tokens, first] at upcoming
        rw [(upcoming_eq_cons_iff.mp upcoming).2.1]
        exact notSemicolon
      rw [items_of_ok ((item?_of_other other).trans attempt)]
      rw [← kept] at spared partsFit separated
      obtain ⟨all, answer, whole⟩ := ih _ rest spared partsFit separated.2 restUpcoming
      refine ⟨all, answer, ?_⟩
      rw [whole, kept, Array.toList_push, List.append_assoc]
      rfl

theorem derives_of_skipSemicolons (derives : Derives settings parser.skipSemicolons.upcoming) :
    Derives settings parser.upcoming := by
  fun_induction skipSemicolons parser with
  | case1 parser current ih =>
    rw [upcoming_of_current current (by simp)]
    exact (ih derives).semicolon
  | case2 => exact derives

/-- A program that is read to its end is a program of the grammar. -/
theorem derives_of_items {read all : Array Item} (known : parser.settings = settings)
    (answer : (parser.items read).1 = ⟨all, none⟩) : Derives settings parser.upcoming := by
  fun_induction items read parser with
  | case1 read parser rest attempt =>
    have attempted := attempt ▸ attempts_item? parser
    cases attempted with
    | finished current =>
      refine derives_of_skipSemicolons ?_
      rw [upcoming_eq_nil_iff.mpr current]
      exact derives_nil
  | case2 read parser kind item rest attempt ih =>
    have attempted := attempt ▸ attempts_item? parser
    cases attempted with
    | parsed passes reads =>
      have kept : rest.settings = settings := by
        rw [passes.settings_eq, settings_skipSemicolons, known]
      obtain ⟨clause, fits, _, _, upcoming⟩ := reads
      rw [settings_skipSemicolons, known] at fits
      refine derives_of_skipSemicolons ?_
      rw [upcoming]
      exact (ih kept answer).clause fits
  | case3 => simp at answer

/-- The tokens ahead of a parser at the beginning of a text are those of the text. -/
theorem ahead_parserOfText (settings : Settings) (text : String) :
    (parserOfText settings text).advance.ahead = locatedTokens text := by
  rw [ahead_advance, locatedTokens, TokenSource.toList_drain, List.nil_append]
  rfl

theorem upcoming_parserOfText (settings : Settings) (text : String) :
    (parserOfText settings text).advance.upcoming = lex text := by
  rw [upcoming, ahead_parserOfText, lex]

end Parser

open Grammar

/-- A text of separated parts is read as their items. -/
theorem parseProgram_of_parts {settings : Settings} {text : String} {parts : List Part}
    (spared : settings.operators.Spares ['(', ')', ',', ';'])
    (fits : ∀ part ∈ parts, part.Fits settings) (separated : Separated settings parts)
    (tokens : lex text = programTokens parts) :
    parseProgram settings text =
      .ok (parts.filterMap (Part.item? settings.operators.strength)) := by
  obtain ⟨all, answer, whole⟩ := Parser.items_of_parts #[] (parserOfText settings text).advance
    spared fits separated ((Parser.upcoming_parserOfText settings text).trans tokens)
  rw [parseProgram, readProgram, answer, ProgramReading.result]
  exact congrArg _ whole

/-- A text of one clause is read as its item. -/
theorem parseProgram_of_clause {settings : Settings} {text : String} {clause : Clause}
    (spared : settings.operators.Spares ['(', ')', ',', ';']) (fits : clause.Fits settings)
    (tokens : lex text = clause.tokens) :
    parseProgram settings text = .ok [clause.item settings.operators.strength] := by
  have partsFit : ∀ part ∈ [Part.clause clause], part.Fits settings := by
    rintro _ ⟨⟩
    · exact fits
    · contradiction
  have separated : Separated settings [.clause clause] := ⟨clause.ends_nil, trivial⟩
  have same : lex text = programTokens [.clause clause] := by
    rw [tokens, programTokens_cons, programTokens_nil, List.append_nil]
    rfl
  exact parseProgram_of_parts spared partsFit separated same

/-- A text is accepted exactly if its tokens are a program of the grammar. -/
theorem parseProgram_ok_iff_derives (settings : Settings) (text : String)
    (spared : settings.operators.Spares ['(', ')', ',', ';']) :
    (∃ items, parseProgram settings text = .ok items) ↔ Derives settings (lex text) := by
  rw [← Parser.upcoming_parserOfText settings text]
  constructor
  · rintro ⟨items, accepted⟩
    unfold parseProgram ProgramReading.result at accepted
    split at accepted
    · next complete =>
      have answer : (readProgram settings text).1 =
          ⟨(readProgram settings text).1.items, none⟩ := by rw [← complete]
      exact Parser.derives_of_items rfl answer
    · contradiction
  · rintro ⟨parts, fits, tokens⟩
    obtain ⟨others, othersFit, separated, same⟩ := exists_separated spared fits
    obtain ⟨all, answer, _⟩ := Parser.items_of_parts #[] (parserOfText settings text).advance
      spared othersFit separated (same.trans tokens).symm
    refine ⟨all.toList, ?_⟩
    simp only [parseProgram, readProgram, answer, ProgramReading.result]

/-- The text is a definition with a call, or one that ends before the parenthesis. -/
theorem parseProgram_ok_iff_derives_of_greedy :
    Settings.standard.operators.Spares ['(', ')', ',', ';'] ∧
      ((∃ items, parseProgram .standard "def f(x y) x*y (x)" = .ok items) ↔
        Derives .standard (lex "def f(x y) x*y (x)")) := by
  have spared : Settings.standard.operators.Spares ['(', ')', ',', ';'] := by decide +kernel
  exact ⟨spared, parseProgram_ok_iff_derives _ _ spared⟩

end OpLang
