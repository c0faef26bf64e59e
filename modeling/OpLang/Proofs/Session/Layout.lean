import OpLang.Proofs.Lexer.Layout
import OpLang.Proofs.Session.Script

/-! # Layout makes no difference

Whoever reads a text sees its tokens and their places, the end of input included. If these are the
same in two texts, so are the programs, and so is all that sessions over the texts report and show,
whatever the settings are. Carriage returns in front of newlines and comments are such differences.
-/

namespace OpLang

/-- No reader can tell two texts apart: the tokens are the same and stand in the same places, and
nothing else is made of them by any settings, in any session and over any sink. -/
structure ReadAlike (text other : String) : Prop where
  tokens : locatedTokens other = locatedTokens text
  /-- Behind the tokens this is about the end of input, however often it is asked for. -/
  answers : ∀ call, Lexer.answer other call = Lexer.answer text call
  program : ∀ settings, parseProgram settings other = parseProgram settings text
  sessions : ∀ (settings : Settings) (interactive : Bool) (sink : Sink),
    let run (text : String) := (Session.ofText settings text interactive).run sink
    (run other).1 = (run text).1 ∧ (run other).2.shown = (run text).2.shown ∧
      (run other).2.flushes.length = (run text).2.flushes.length

variable {text other : String} {cut cut' : Segmentation}

/-- Parsers over texts with the same tokens in the same places have the same results. -/
theorem Parser.sameResults_of_respaced (cuts : cut.Cuts text.toList)
    (cuts' : cut'.Cuts other.toList) (respaced : cut.Respaces cut') (settings : Settings) :
    (parserOfText settings text).advance.SameResults (parserOfText settings other).advance := by
  refine ⟨settles_parserOfText settings text, settles_parserOfText settings other, ?_⟩
  have holds := holds_ofSource settings (CharSource.ahead_list text.toList) cuts
  have others := holds_ofSource settings (CharSource.ahead_list other.toList) cuts'
  rw [locate_respaced respaced.segments rfl, respaced.behind_eq cuts cuts'] at others
  exact results_of_sameOrder holds others (fun _ _ _ _ => trivial) rfl
    (.refl (fun _ => True) settings.operators)

/-- Texts that differ in gaps only, and not in the places where these end, are read alike. -/
theorem Segmentation.Respaces.readAlike (respaced : cut.Respaces cut')
    (cuts : cut.Cuts text.toList) (cuts' : cut'.Cuts other.toList) : ReadAlike text other where
  tokens := by
    rw [Lexer.locatedTokens_eq cuts, Lexer.locatedTokens_eq cuts',
      locate_respaced respaced.segments rfl]
  answers call := by
    rw [Lexer.answer_eq cuts, Lexer.answer_eq cuts', locate_respaced respaced.segments rfl,
      respaced.behind_eq cuts cuts']
  program settings := by
    have same := Parser.sameResults_of_respaced cuts cuts' respaced settings
    rw [parseProgram, parseProgram, readProgram_eq_ofResults, readProgram_eq_ofResults,
      resultsOfText, resultsOfText, same.results]
  sessions settings interactive sink :=
    Session.run_congr sink rfl (Parser.sameResults_of_respaced cuts cuts' respaced settings)

/-- Whether a line ends in a newline alone or in a carriage return and a newline makes no
difference. Where the places fit into the counters with the carriage returns, they fit without
them. -/
theorem readAlike_withReturns (text : String) :
    let changed := String.ofList (withReturns text.toList)
    ReadAlike text changed ∧
      (PlacesFit changed → Lexer.CountersFit text ∧ Lexer.CountersFit changed) := by
  intro changed
  obtain ⟨segments, finish, cut⟩ := exists_segmented text.toList
  have cut' : Segmentation.Cuts ⟨segments.map .withReturns, withReturns finish⟩ changed.toList := by
    rw [String.toList_ofList]
    exact cut.withReturns
  have respaced := Segmentation.respaces_withReturns ⟨segments, finish⟩
  exact ⟨respaced.readAlike cut cut', fun fit => ⟨fit.of_withReturns.counters, fit.counters⟩⟩

/-- Comments make no more difference than blanks in their places. -/
theorem readAlike_blankComments (text : String) :
    let changed := String.ofList (blankComments text.toList)
    BlanksComments text.toList changed.toList ∧ ReadAlike text changed := by
  intro changed
  obtain ⟨segments, finish, cut⟩ := exists_segmented text.toList
  have cuts : Segmentation.Cuts ⟨segments, finish⟩ text.toList := cut
  obtain ⟨other, respaced, cuts'⟩ := cuts.exists_blankComments
  have chars : changed.toList = blankComments text.toList := String.toList_ofList
  rw [← chars] at cuts'
  exact ⟨chars ▸ blanksComments text.toList, respaced.readAlike cuts cuts'⟩

end OpLang
