import OpLang.Proofs.Parser.Soundness
import OpLang.Proofs.Session.Limits

/-! # A sink that refuses cuts the output

When a sink refuses, it has taken a beginning of what a sink without limits would have taken: as
many bytes as it had room for, or everything up to the prompt that it was to flush. Nothing else
about a run changes.
-/

namespace OpLang

/-! ### The acts of a script -/

namespace Session

/-- What an interactive session that answers with these lines has shown with a prompt, which is
counted from zero. -/
def upToPrompt (lines : List String) (index : Nat) : String :=
  promptText ++ String.join ((lines.take index).map (· ++ promptText))

theorem writtenBefore_turns {lines : List String} {index : Nat} (inside : index < lines.length) :
    Act.writtenBefore index (lines.flatMap fun line => .write line :: asks true) =
      String.join ((lines.take (index + 1)).map (· ++ promptText)) := by
  induction lines generalizing index with
  | nil => contradiction
  | cons line lines ih =>
    rw [List.take_succ_cons, List.map_cons, String.join_cons, String.append_assoc]
    cases index with
    | zero => rfl
    | succ index =>
      rw [← ih (Nat.lt_of_succ_lt_succ inside)]
      rfl

theorem writtenBefore_script {lines : List String} {index : Nat} (inside : index ≤ lines.length) :
    Act.writtenBefore index (script true lines) = upToPrompt lines index := by
  cases index with
  | zero => rfl
  | succ index => exact congrArg (promptText ++ ·) (writtenBefore_turns inside)

/-- Whatever stands before a prompt, and the prompt itself, is a beginning of all that is shown. -/
theorem upToPrompt_prefix (lines : List String) (index : Nat) :
    (upToPrompt lines index).toList <+: (upToPrompt lines lines.length).toList := by
  have whole : upToPrompt lines lines.length =
      upToPrompt lines index ++ String.join ((lines.drop index).map (· ++ promptText)) := by
    rw [upToPrompt, upToPrompt, String.append_assoc, ← String.join_append, ← List.map_append,
      List.take_append_drop, List.take_length]
  rw [whole, String.toList_append]
  exact List.prefix_append _ _

/-! ### Lines are made of small characters -/

theorem isAscii_announcement (kind : ItemKind) : IsAscii (announcement kind) := by
  cases kind <;> decide +kernel

theorem isAscii_fault {fault : ParseFault}
    (word : ∀ name, fault = .repeatedParameter name → IsName name) : IsAscii fault.text := by
  cases fault with
  | unexpected wanted found =>
    change IsAscii wanted.complaint
    cases wanted <;> decide +kernel
  | repeatedParameter name =>
    have letters : IsPrintable name := .of_isAlphanum (List.all_eq_true.mp (word name rfl).word)
    have before : IsAscii "duplicate parameter '" := by decide +kernel
    have behind : IsAscii "' in prototype" := by decide +kernel
    exact (before.append letters.isAscii).append behind

/-- A complaint holds a word of the input at most. -/
theorem isAscii_complaint {error : ParseError}
    (word : ∀ name, error.fault = .repeatedParameter name → IsName name) :
    IsAscii (complaint error) := by
  have opening : IsAscii "Error: " := by decide +kernel
  have place : IsAscii " (at " := by decide +kernel
  have closing : IsAscii ")" := by decide +kernel
  have found : IsAscii error.location.text := (IsPrintable.location error.location).isAscii
  have text : IsAscii error.text :=
    (((isAscii_fault word).append place).append found).append closing
  have ending : IsAscii "\n" := by decide +kernel
  exact (opening.append text).append ending

variable {σ : Type} [CharSource σ] {settings : Settings} {source : σ}
  {parser : Parser (Lexer σ)}

/-- The parameter that an error complains about is a word of the source. -/
theorem isName_of_rejected {rest : Parser (Lexer σ)} {kind : ItemKind} {error : ParseError}
    {name : String} (reached : parser.Reached settings source)
    (attempt : parser.item? = (some ⟨kind, .error error⟩, rest))
    (fault : error.fault = .repeatedParameter name) : IsName name := by
  have behind := reached.item? attempt
  have attempted := parser.attempts_item?
  rw [attempt] at attempted
  cases attempted with
  | rejected _ _ offender =>
    have here : rest.current = .name name := by
      have token : rest.current = error.fault.offender := congrArg (·.token) offender
      rw [token, fault]
      rfl
    have found : rest.current ≠ .endOfInput := by simp [here]
    have ahead : rest.here ∈ rest.ahead := by
      rw [Parser.ahead_of_found found]
      exact List.mem_cons_self
    have spelled : rest.current.IsSpelled := behind.isSpelled rest.here ahead
    rw [here] at spelled
    exact spelled.isName

/-- Whatever a parser comes to, the lines that answer its results are made of such characters. -/
theorem isAscii_line (reached : parser.Reached settings source) :
    ∀ result ∈ parser.results, IsAscii result.line := by
  fun_induction Parser.results parser with
  | case1 => simp
  | case2 parser result rest attempt ih =>
    have behind := reached.item? attempt
    rcases result with ⟨kind, error | item⟩
    · refine List.forall_mem_cons.mpr ⟨?_, ih behind.advance⟩
      exact isAscii_complaint fun name fault => isName_of_rejected reached attempt fault
    · exact List.forall_mem_cons.mpr ⟨isAscii_announcement kind, ih behind⟩

theorem isAscii_written_script {interactive : Bool} {lines : List String}
    (small : ∀ line ∈ lines, IsAscii line) :
    IsAscii (Act.written (script interactive lines)) := by
  have prompt : IsAscii (prompts interactive) := by cases interactive <;> decide +kernel
  rw [written_script]
  refine prompt.append (.join fun text member => ?_)
  obtain ⟨line, present, rfl⟩ := List.mem_map.mp member
  exact (small line present).append prompt

/-! ### Runs over any sink -/

/-- How a run over a sink ends that would answer with these lines and report this, and what it
shows, given what the same run shows and how often it flushes over a sink without limits. -/
inductive CutShort (lines : List String) (report : Report) (whole : String) (flushes : Nat)
    (sink : Sink) : Except SinkFault Report → String → Prop where
  /-- The sink takes everything. -/
  | never (room : ∀ room ∈ sink.room, whole.utf8ByteSize ≤ room)
    (enough : ∀ limit ∈ sink.flushes, flushes ≤ limit) :
    CutShort lines report whole flushes sink (.ok report) whole
  /-- The sink is full before a flush fails. -/
  | full {room : Nat} {taken : String} (bounded : sink.room = some room)
    (short : room < whole.utf8ByteSize) (front : taken.toList <+: whole.toList)
    (size : taken.utf8ByteSize = room)
    (first : ∀ limit ∈ sink.flushes, limit < flushes →
      room < (upToPrompt lines limit).utf8ByteSize) :
    CutShort lines report whole flushes sink (.error .full) taken
  /-- A flush fails before the sink is full. -/
  | flushFailed {limit : Nat} (bounded : sink.flushes = some limit) (short : limit < flushes)
    (front : (upToPrompt lines limit).toList <+: whole.toList)
    (first : ∀ room ∈ sink.room, (upToPrompt lines limit).utf8ByteSize ≤ room) :
    CutShort lines report whole flushes sink (.error .flushFailed) (upToPrompt lines limit)

theorem CutShort.ok_iff {lines : List String} {report : Report} {whole shown : String}
    {flushes : Nat} {sink : Sink} {answer : Except SinkFault Report}
    (cut : CutShort lines report whole flushes sink answer shown) :
    (∃ found, answer = .ok found) ↔ (∀ room ∈ sink.room, whole.utf8ByteSize ≤ room) ∧
      ∀ limit ∈ sink.flushes, flushes ≤ limit := by
  cases cut with
  | never room enough => exact ⟨fun _ => ⟨room, enough⟩, fun _ => ⟨report, rfl⟩⟩
  | full bounded short =>
    constructor
    · rintro ⟨_, same⟩
      cases same
    · exact fun ⟨room, _⟩ => absurd (room _ bounded) (Nat.not_le.mpr short)
  | flushFailed bounded short =>
    constructor
    · rintro ⟨_, same⟩
      cases same
    · exact fun ⟨_, enough⟩ => absurd (enough _ bounded) (Nat.not_le.mpr short)

theorem script_of_flushes {interactive : Bool} {lines : List String} {limit : Nat}
    (short : limit < Act.flushes (script interactive lines)) :
    Act.writtenBefore limit (script interactive lines) = upToPrompt lines limit ∧
      (upToPrompt lines limit).toList <+: (Act.written (script interactive lines)).toList := by
  rw [flushes_script] at short
  cases interactive with
  | false => contradiction
  | true =>
    have whole : Act.written (script true lines) = upToPrompt lines lines.length := by
      rw [written_script, upToPrompt, List.take_length]
      rfl
    rw [whole]
    exact ⟨writtenBefore_script (Nat.le_of_lt_succ short), upToPrompt_prefix lines limit⟩

/-- What a sink makes of a script cuts a run short in one of these ways. -/
theorem cutShort_of_permits {interactive : Bool} {lines : List String} (report : Report)
    {sink : Sink} {performance : Performance}
    (permits : sink.Permits (script interactive lines) performance.taken performance.fault?) :
    CutShort lines report (Act.written (script interactive lines))
      (Act.flushes (script interactive lines)) sink (performance.answer report)
      performance.taken := by
  obtain ⟨taken, flushed, fault?, rest⟩ := performance
  dsimp only at permits ⊢
  cases permits with
  | all room flushes => exact .never room flushes
  | full bounded short front size first =>
    refine .full bounded short front size fun limit fails less => ?_
    rw [← (script_of_flushes less).1]
    exact first limit fails less
  | flushFailed bounded short first =>
    obtain ⟨same, front⟩ := script_of_flushes short
    rw [same] at first ⊢
    exact .flushFailed bounded short front first

/-- A sink that refuses cuts the output of a run and nothing else. The run succeeds, with the report
and the output that it has over a sink without limits, exactly if the sink has room for all of the
output and lets all flushes succeed. Otherwise it answers the refusal. The output is then as many
bytes of the whole output as there was room for, or everything up to the prompt that could not be
flushed, whichever is less. -/
theorem refusal_cuts_output (settings : Settings) (text : String) (interactive : Bool) :
    let lines := (resultsOfText settings text).map (·.line)
    ∃ report healthy,
      (ofText settings text interactive).run .unlimited = (.ok report, healthy) ∧
      healthy.shown = prompts interactive ++ String.join (lines.map (· ++ prompts interactive)) ∧
      healthy.flushes.length = (if interactive then lines.length + 1 else 0) ∧
      ∀ sink, let outcome := (ofText settings text interactive).run sink
        CutShort lines report healthy.shown healthy.flushes.length sink outcome.1
          outcome.2.shown ∧
        ((∃ found, outcome.1 = .ok found) ↔
          (∀ room ∈ sink.room, healthy.shown.utf8ByteSize ≤ room) ∧
            ∀ limit ∈ sink.flushes, healthy.flushes.length ≤ limit) := by
  intro lines
  obtain ⟨healthy, ran, shown, flushes⟩ := run_unlimited settings text interactive
  have reached : (parserOfText settings text).advance.Reached settings text.toList :=
    Parser.Reached.start.advance
  have small : ∀ line ∈ lines, IsAscii line := by
    intro line member
    obtain ⟨result, present, rfl⟩ := List.mem_map.mp member
    exact isAscii_line reached result present
  have ascii : IsAscii (Act.written (script interactive lines)) := isAscii_written_script small
  refine ⟨_, healthy, ran, shown, flushes, ?_⟩
  intro sink outcome
  obtain ⟨answer, taken, _⟩ := run_runs sink (ofText settings text interactive)
    (Parser.settles_parserOfText settings text)
  have cut : CutShort lines (.ofResults (resultsOfText settings text))
      (Act.written (script interactive lines)) (Act.flushes (script interactive lines)) sink
      outcome.1 outcome.2.shown := by
    rw [answer, taken]
    exact cutShort_of_permits _ (sink.permits_perform ascii)
  rw [written_script, flushes_script, ← shown, ← flushes] at cut
  exact ⟨cut, cut.ok_iff⟩

end Session

end OpLang
