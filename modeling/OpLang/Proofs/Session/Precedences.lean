import OpLang.Proofs.Session.Results

/-! # Only the order of precedences matters

A parser compares precedences of operators that it meets with each other, and nothing else is done
with them. Tables that make operators of the same characters and put them in the same order cannot
be told apart over a text, however far apart the precedences are and whatever else the tables have.
-/

namespace OpLang

/-- Two settings make no difference over a text: the program is the same, and so are the report and
the output of every session, whatever its sink. -/
structure Settings.Indistinct (settings others : Settings) (text : String) : Prop where
  program : parseProgram others text = parseProgram settings text
  sessions : ∀ (interactive : Bool) (sink : Sink),
    let run (settings : Settings) := (Session.ofText settings text interactive).run sink
    (run others).1 = (run settings).1 ∧ (run others).2.shown = (run settings).2.shown

/-- The character is a token of a text by itself, and it has an ASCII code. -/
def Occurs (text : String) (char : Char) : Prop :=
  isAscii char = true ∧ .symbol char ∈ lex text

/-- A character that is a token of a text is a character of it. -/
theorem Occurs.mem {text : String} {char : Char} (occurs : Occurs text char) :
    char ∈ text.toList := by
  obtain ⟨segments, finish, cut⟩ := exists_segmented text.toList
  have member := occurs.2
  rw [lex_of_segmented cut] at member
  obtain ⟨segment, among, token⟩ := List.mem_map.mp member
  have spells : Lexeme (.symbol char) segment.lexeme := token ▸ cut.lexeme segment among
  rw [← cut.chars_eq]
  refine List.mem_append_left _ (List.mem_flatMap.mpr ⟨segment, among, ?_⟩)
  rw [spells.eq_of_symbol]
  simp

/-- An entry of a table has no effect over a text: its character is not an operator of the text or
not an operator at all. -/
def Operators.Idle (operators : Operators) (text : String) (char : Char) (precedence : Int32) :
    Prop :=
  isAscii char = false ∨ .symbol char ∉ lex text ∨
    precedence ≤ 0 ∧ operators.precedence? char = none

theorem Operators.Idle.sameOrder {operators : Operators} {text : String} {char : Char}
    {precedence : Int32} (idle : operators.Idle text char precedence) :
    operators.SameOrder (Occurs text) (operators.install char precedence) := by
  apply Operators.SameOrder.of_precedence?_eq
  rintro found ⟨ascii, member⟩
  by_cases same : found = char
  · subst same
    rcases idle with wide | absent | ⟨nonpositive, none⟩
    · simp [wide] at ascii
    · exact absurd member absent
    · rw [none, Operators.precedence?_install_of_nonpositive nonpositive]
  · exact Operators.precedence?_install_of_ne same

/-- Parsers over a text by settings that cannot be told apart have the same results. -/
theorem Parser.sameResults_of_sameOrder {settings others : Settings} {text : String}
    (repeated : others.allowRepeatedParameters = settings.allowRepeatedParameters)
    (order : settings.operators.SameOrder (Occurs text) others.operators) :
    (parserOfText settings text).advance.SameResults (parserOfText others text).advance := by
  obtain ⟨segments, finish, cut⟩ := exists_segmented text.toList
  have ahead := CharSource.ahead_list text.toList
  refine ⟨settles_parserOfText settings text, settles_parserOfText others text, ?_⟩
  refine results_of_sameOrder (holds_ofSource settings ahead cut) (holds_ofSource others ahead cut)
    (fun token member char symbol => ?_) repeated order.of_ascii
  rw [lex_of_segmented cut, ← map_token_locate [], ← symbol]
  exact List.mem_map_of_mem member

theorem Settings.indistinct_of_results {settings others : Settings} {text : String}
    (same : (parserOfText settings text).advance.SameResults (parserOfText others text).advance) :
    settings.Indistinct others text where
  program := by
    rw [parseProgram, parseProgram, readProgram_eq_ofResults, readProgram_eq_ofResults,
      resultsOfText, resultsOfText, same.results]
  sessions interactive sink :=
    have runs : Doing.ShowsAs _ ((Session.ofText settings text interactive).run sink)
        ((Session.ofText others text interactive).run sink) := Session.run_showsAs sink rfl same
    runs.eq

/-- Settings that put the operators of a text in the same order make no difference over it, and
neither does an entry without effect. -/
theorem Settings.indistinct_of_sameOrder (text : String) :
    (∀ settings others : Settings,
      others.allowRepeatedParameters = settings.allowRepeatedParameters →
        settings.operators.SameOrder (Occurs text) others.operators →
          settings.Indistinct others text) ∧
      ∀ (settings : Settings) (char : Char) (precedence : Int32),
        settings.operators.Idle text char precedence → settings.Indistinct
          { settings with operators := settings.operators.install char precedence } text := by
  constructor
  · intro settings others repeated order
    exact indistinct_of_results (Parser.sameResults_of_sameOrder repeated order)
  · intro settings char precedence idle
    exact indistinct_of_results (Parser.sameResults_of_sameOrder rfl idle.sameOrder)

/-- The tables have other precedences in the same order, an operator that is not in the text, and an
entry for a character without an ASCII code that is. -/
theorem Settings.indistinct_of_sameOrder_of_wide :
    let others := Operators.empty.installAll [('/', 3), ('+', 5), ('-', 5), ('*', 9), ('é', 7)]
    Operators.standard.SameOrder (Occurs "a-b*é+c") others ∧
      Settings.standard.Indistinct ⟨others, true⟩ "a-b*é+c" ∧
      Operators.standard.Idle "a-b*é+c" 'é' 7 ∧
      Settings.standard.Indistinct ⟨Operators.standard.install 'é' 7, true⟩ "a-b*é+c" := by
  intro others
  have order : Operators.standard.SameOrder (· ∈ "a-b*é+c".toList) others := by decide +kernel
  have occurring := order.mono fun _ (occurs : Occurs "a-b*é+c" _) => occurs.mem
  have idle : Operators.standard.Idle "a-b*é+c" 'é' 7 := .inl (by decide)
  obtain ⟨general, entry⟩ := Settings.indistinct_of_sameOrder "a-b*é+c"
  exact ⟨occurring, general .standard ⟨others, true⟩ rfl occurring, idle,
    entry .standard 'é' 7 idle⟩

end OpLang
