import OpLang.Proofs.Parser.Soundness
import OpLang.Proofs.Session.Keeping

/-! # What sessions and programs report can be relied on

Whatever a session does and however often its sink refuses, its parser stays among the states that
its source can bring it to. So a report lists only items that calls handed out, as the reading of a
program does, and all of them are sound.
-/

open OpLang.Parser (Reached Handed)

namespace OpLang

namespace Session

variable {σ : Type} [CharSource σ] {settings : Settings} {source : σ}
  {session next : Session (Lexer σ)}

/-- An item that a turn replies was handed out in it. -/
theorem handed_of_turn {item : Item} (reached : Reached settings source session.parser)
    (turned : session.turn = (.ok (some (.parsed item)), next)) :
    ∃ kind, Handed settings source kind item := by
  rcases attempt : session.parser.item? with ⟨_ | result, rest⟩
  · simp [turn_of_nothing attempt] at turned
  · have reply : .parsed item = result.reply := Option.some.inj (reply_of_turn attempt turned)
    rcases result with ⟨kind, error | found⟩
    · contradiction
    · obtain rfl := Reply.parsed.inj reply
      exact ⟨kind, session.parser, rest, reached, attempt⟩

/-- Taking turns adds only items to the report that were handed out. -/
theorem handed_of_takeTurns {report whole : Report}
    (reached : Reached settings source session.parser)
    (ended : session.takeTurns report = (.ok whole, next)) :
    ∀ item ∈ whole.items, item ∈ report.items ∨ ∃ kind, Handed settings source kind item := by
  fun_induction takeTurns report session with
  | case1 report session next turned =>
    cases ended
    exact fun item member => .inl member
  | case2 report session reply next turned ih =>
    have left := turn_keeps Reached.keeps reached
    rw [turned] at left
    intro item member
    rcases ih left ended item member with found | handed
    · cases reply with
      | parsed first =>
        rcases Array.mem_push.mp found with found | rfl
        · exact .inl found
        · exact .inr (handed_of_turn reached turned)
      | rejected error => exact .inl found
    · exact .inr handed
  | case3 => simp at ended

/-- A session may be run again and again: its parser stays among the same states. -/
theorem run_leaves (sink : Sink) (reached : Reached settings source session.parser) :
    (session.run sink).Leaves (Reached settings source) := run_keeps Reached.keeps sink reached

theorem handed_of_run {sink : Sink} {report : Report}
    (reached : Reached settings source session.parser)
    (ran : session.run sink = (.ok report, next)) :
    ∀ item ∈ report.items, ∃ kind, Handed settings source kind item := by
  obtain ⟨_, first, started, taken⟩ := Doing.andThen_eq_ok_iff.mp ran
  have begun : Reached settings source { session with sink, transcript := #[] }.parser := reached
  have left := start_keeps Reached.keeps begun
  rw [started] at left
  intro item member
  rcases handed_of_takeTurns left taken item member with found | handed
  · simp [Report.empty] at found
  · exact handed

end Session

open Grammar

/-- Whatever item a call hands out, a program is read as or a session reports, can be relied on.
The state before the call, or of the session before it is run, may be any that the source brings a
parser to; a session stays in such states, so it may be run again. -/
theorem sound_of_handed {σ : Type} [CharSource σ] (settings : Settings) (source : σ) :
    (∀ kind item, Handed settings source kind item → item.Sound settings kind) ∧
    (∀ text items, parseProgram settings text = .ok items → ∀ item ∈ items,
      ∃ kind, Handed settings text.toList kind item ∧ item.Sound settings kind) ∧
    ∀ (session : Session (Lexer σ)) (sink : Sink),
      Reached settings source session.parser →
        Reached settings source (session.run sink).2.parser ∧
        ∀ report, (session.run sink).1 = .ok report → ∀ item ∈ report.items,
          ∃ kind, Handed settings source kind item ∧ item.Sound settings kind := by
  refine ⟨fun kind item handed => handed.sound, ?_, ?_⟩
  · intro text items accepted item member
    obtain ⟨kind, handed⟩ := handed_of_parseProgram accepted item member
    exact ⟨kind, handed, handed.sound⟩
  · intro session sink reached
    refine ⟨Session.run_leaves sink reached, ?_⟩
    intro report answer item member
    have ran : session.run sink = (.ok report, (session.run sink).2) := Prod.ext answer rfl
    obtain ⟨kind, handed⟩ := Session.handed_of_run reached ran item member
    exact ⟨kind, handed, handed.sound⟩

/-- The declaration repeats a parameter, the literal has two points, and the definition is followed
by nothing. -/
theorem sound_of_handed_of_repetition :
    let text := "extern g(y y); def f(x) 1.5.2+g(x)"
    let session := Session.ofText .standard text true
    ∃ items report, parseProgram .standard text = .ok items ∧ items.length = 2 ∧
      (session.run .unlimited).1 = .ok report ∧
      (∀ item ∈ items, ∃ kind, Handed .standard text.toList kind item ∧
        item.Sound .standard kind) ∧
      ∀ item ∈ report.items, ∃ kind, Handed .standard text.toList kind item ∧
        item.Sound .standard kind := by
  intro text session
  let sum : Chain :=
    ⟨.number (Literal.value "1.5.2".toList), [('+', .call "g" [⟨.variable "x", []⟩])]⟩
  let parts : List Part := [.clause (.declaration ⟨"g", ["y", "y"]⟩), .semicolon,
    .clause (.definition ⟨"f", ["x"]⟩ sum)]
  have spared : Settings.standard.operators.Spares ['(', ')', ',', ';'] := by decide +kernel
  have plus : Settings.standard.operators.Effective '+' := by decide +kernel
  have fits : ∀ part ∈ parts, part.Fits .standard := by
    simp only [parts, List.forall_mem_cons]
    exact ⟨nofun, trivial, ⟨nofun, trivial, plus, ⟨⟨trivial, trivial⟩, trivial⟩, trivial⟩, by simp⟩
  have separated : Separated .standard parts := ⟨trivial, trivial, ⟨nofun, nofun⟩, trivial⟩
  have tokens : lex text = programTokens parts := by decide +kernel
  have accepted := parseProgram_of_parts spared fits separated tokens
  obtain ⟨_, _, _, _, _, _, ran, _⟩ := Session.run_ofText .standard text true
  obtain ⟨_, programs, sessions⟩ := sound_of_handed .standard text.toList
  have reported := congrArg (·.1) ran
  exact ⟨_, _, accepted, rfl, reported, programs text _ accepted,
    (sessions session .unlimited .start).2 _ reported⟩

end OpLang
