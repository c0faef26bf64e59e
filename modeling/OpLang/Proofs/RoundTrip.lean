import OpLang.Proofs.Grammar.Writing
import OpLang.Proofs.Lexer.Segmentation
import OpLang.Proofs.Parser.Programs

/-! # Writing and parsing

Whoever writes items and parses the text gets the items back, however many blanks and redundant
parentheses the text has.
-/

namespace OpLang

open Grammar

/-- Items of the language can be written, and every text that writes them is parsed as them. -/
theorem parseProgram_of_writes (settings : Settings) {items : List Item}
    (spared : settings.operators.Spares ['(', ')', ',', ';'])
    (wellFormed : ∀ item ∈ items, item.WellFormed settings) :
    (∃ text, Writes settings.operators.strength items text) ∧
      ∀ text, Writes settings.operators.strength items text →
        parseProgram settings text = .ok items := by
  refine ⟨exists_writes _ wellFormed, ?_⟩
  rintro text ⟨parts, spells, spaced⟩
  have upcoming : (parserOfText settings text).advance.upcoming = programTokens parts :=
    (Parser.upcoming_parserOfText settings text).trans (lex_of_spaced spaced)
  have separated := spells.separated (spared.not_effective (by simp))
  obtain ⟨all, answer, whole⟩ := Parser.items_of_parts #[] _ spared
    (spells.fits wellFormed) separated upcoming
  have same : all.toList = items := whole.trans (spells.items_eq wellFormed)
  simp only [parseProgram, readProgram, answer, ProgramReading.result, same]

/-- The right operand of the difference needs its parentheses, the sum in the call needs none. -/
theorem parseProgram_of_writes_of_difference :
    let items : List Item := [
      .declaration ⟨"sin", ["x"]⟩,
      .function ⟨⟨"f", ["x", "y"]⟩, .binary '-' (.variable "x")
        (.binary '-' (.variable "y") (.number (Literal.value ['.', '5'])))⟩,
      .function (.ofExpr (.call "f" [.binary '+' (.variable "z") (.call "sin" [.variable "z"])]))]
    Settings.standard.operators.Spares ['(', ')', ',', ';'] ∧
      (∀ item ∈ items, item.WellFormed .standard) ∧
      (∃ text, Writes Settings.standard.operators.strength items text) ∧
        ∀ text, Writes Settings.standard.operators.strength items text →
          parseProgram .standard text = .ok items := by
  intro items
  have spared : Settings.standard.operators.Spares ['(', ')', ',', ';'] := by decide +kernel
  have minus : Settings.standard.operators.Effective '-' := by decide +kernel
  have plus : Settings.standard.operators.Effective '+' := by decide +kernel
  have x : IsName "x" := by decide
  have y : IsName "y" := by decide
  have z : IsName "z" := by decide
  have half : IsPlain ['.', '5'] := ⟨by decide, by decide, by decide⟩
  have declared : (items[0]).WellFormed .standard :=
    ⟨by decide, by decide, fun _ => by decide⟩
  have defined : (items[1]).WellFormed .standard :=
    ⟨.inr ⟨by decide, by decide, fun _ => by decide⟩, minus, by decide, x, minus, by decide, y,
      ['.', '5'], half, rfl⟩
  have bare : (items[2]).WellFormed .standard :=
    ⟨.inl rfl, by decide, ⟨plus, by decide, z, by decide, z, trivial⟩, trivial⟩
  have wellFormed : ∀ item ∈ items, item.WellFormed .standard := by
    simp only [items, List.forall_mem_cons]
    exact ⟨declared, defined, bare, by simp⟩
  exact ⟨spared, wellFormed, parseProgram_of_writes .standard spared wellFormed⟩

end OpLang
