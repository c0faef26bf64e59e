import OpLang.Proofs.Grammar.Soundness
import OpLang.Proofs.Lexer.Segmentation
import OpLang.Proofs.Parser.Programs

/-! # The items that parsers hand out

A parser over a source of characters is only ever in states that it comes to by reading tokens and
making entries in its log. In all of them every token ahead has been spelled by characters of the
source, so whatever item the parser hands out next is one that can be relied on.
-/

namespace OpLang

variable {σ : Type} [CharSource σ] {settings : Settings} {source : σ}

/-- A lexer hands out only tokens that some characters spell. -/
theorem Lexer.isSpelled_of_mem_ahead (lexer : Lexer σ) :
    ∀ token ∈ TokenSource.ahead lexer, token.token.IsSpelled := by
  intro token member
  obtain ⟨segments, finish, cut⟩ := exists_segmented lexer.ahead
  have found : token.token ∈ (TokenSource.ahead lexer).map (·.token) := List.mem_map_of_mem member
  rw [tokens_of_segmented cut rfl] at found
  obtain ⟨segment, present, same⟩ := List.mem_map.mp found
  exact ⟨segment.lexeme, same ▸ cut.lexeme segment present⟩

namespace Parser

/-- The states that a parser over a source can come to, by whatever calls. -/
inductive Reached (settings : Settings) (source : σ) : Parser (Lexer σ) → Prop where
  | start : Reached settings source (.ofTokens (.ofSource source) settings)
  | advance {parser : Parser (Lexer σ)} (before : Reached settings source parser) :
    Reached settings source parser.advance
  | log {parser : Parser (Lexer σ)} (before : Reached settings source parser)
    (log : Array Event) : Reached settings source { parser with log }

/-- An item that a call may hand out, as one of its kind. -/
def Handed (settings : Settings) (source : σ) (kind : ItemKind) (item : Item) : Prop :=
  ∃ parser rest, Reached settings source parser ∧ parser.item? = (some ⟨kind, .ok item⟩, rest)

namespace Reached

variable {parser rest : Parser (Lexer σ)}

theorem keeps : Keeps (Reached settings source) :=
  ⟨fun before => before.advance, fun log before => before.log log⟩

theorem settings_eq (reached : Reached settings source parser) : parser.settings = settings := by
  induction reached with
  | start => rfl
  | advance _ ih => exact ih
  | log _ _ ih => exact ih

/-- The token at hand comes from the source, too. -/
theorem isSpelled (reached : Reached settings source parser) :
    ∀ token ∈ parser.ahead, token.token.IsSpelled := by
  induction reached with
  | start =>
    rw [ahead_eq_nil_iff.mpr rfl]
    simp
  | advance =>
    rw [ahead_advance]
    exact Lexer.isSpelled_of_mem_ahead _
  | log _ _ ih => exact ih

theorem item? {attempt : Option ItemResult} (reached : Reached settings source parser)
    (read : parser.item? = (attempt, rest)) : Reached settings source rest :=
  keeps.item? reached read

end Reached

/-- What is handed out can be relied on. -/
theorem Handed.sound {kind : ItemKind} {item : Item} (handed : Handed settings source kind item) :
    item.Sound settings kind := by
  obtain ⟨parser, rest, reached, read⟩ := handed
  obtain ⟨_, skips, _⟩ := skipSemicolons_passes parser
  have started := Reached.keeps.passes reached skips
  have attempted := read ▸ attempts_item? parser
  cases attempted with
  | parsed _ reads =>
    obtain ⟨clause, fits, rfl, rfl, upcoming⟩ := reads
    rw [started.settings_eq] at fits
    apply clause.sound fits
    intro token member
    have ahead : token ∈ parser.skipSemicolons.upcoming := by
      rw [upcoming]
      exact List.mem_append_left _ member
    obtain ⟨located, present, rfl⟩ := List.mem_map.mp ahead
    exact started.isSpelled located present

/-- Every item of a program is handed out by a call. -/
theorem handed_of_mem_items {read : Array Item} {parser : Parser (Lexer σ)}
    (reached : Reached settings source parser) :
    ∀ item ∈ (parser.items read).1.items,
      item ∈ read ∨ ∃ kind, Handed settings source kind item := by
  fun_induction items read parser with
  | case1 | case3 =>
    intro item member
    exact .inl member
  | case2 read parser kind first rest attempt ih =>
    intro item member
    rcases ih (reached.item? attempt) item member with found | handed
    · rcases Array.mem_push.mp found with found | rfl
      · exact .inl found
      · exact .inr ⟨kind, parser, rest, reached, attempt⟩
    · exact .inr handed

end Parser

/-- Every item that a text is read as is handed out by a call. -/
theorem handed_of_parseProgram {settings : Settings} {text : String} {items : List Item}
    (accepted : parseProgram settings text = .ok items) :
    ∀ item ∈ items, ∃ kind, Parser.Handed settings text.toList kind item := by
  have reached : Parser.Reached settings text.toList (parserOfText settings text).advance :=
    Parser.Reached.start.advance
  unfold parseProgram ProgramReading.result at accepted
  split at accepted
  · obtain rfl := Except.ok.inj accepted
    intro item member
    have among := Array.mem_toList_iff.mp member
    rcases Parser.handed_of_mem_items reached item among with found | handed
    · simp at found
    · exact handed
  · contradiction

end OpLang
