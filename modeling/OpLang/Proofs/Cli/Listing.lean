import OpLang.Cli.Run
import OpLang.Proofs.Lexer.Layout
import OpLang.Proofs.Parser.Soundness
import OpLang.Proofs.Source.Supply
import OpLang.Proofs.Token

/-! # Listings of tokens

A listing has one line for each token, its place and its text with a tab between them. As both are
printable, lines and columns can be told apart again, and as places and spelled tokens are told
apart by their texts, a listing is as good as the tokens themselves. This is so for any conventions
that lead to a listing.
-/

namespace OpLang

/-- Sources that hand out the characters of a text are read as its tokens. -/
theorem Lexer.ahead_ofSource_eq {σ : Type} [CharSource σ] {source : σ} {text : String}
    (chars : CharSource.ahead source = text.toList) :
    TokenSource.ahead (ofSource source) = locatedTokens text := by
  obtain ⟨segments, finish, cut⟩ := exists_segmented text.toList
  rw [locatedTokens, TokenSource.toList_drain, List.nil_append,
    ahead_ofSource_of_segmented (chars.symm ▸ cut),
    ahead_ofSource_of_segmented ((CharSource.ahead_list text.toList).symm ▸ cut)]

namespace Cli

/-- What a listing says about a token: its line and its column, and behind a tab what it is. -/
def row (found : LocatedToken) : String :=
  toString found.location.line ++ ":" ++ toString found.location.column ++ "\t" ++ found.token.text

/-- An output has exactly one line for each of some tokens. -/
structure IsListing (output : String) (tokens : List LocatedToken) : Prop where
  lines : output = String.join (tokens.map fun found => row found ++ "\n")
  newline : ∀ found ∈ tokens, '\n' ∉ (row found).toList
  tab : ∀ found ∈ tokens, (row found).toList.count '\t' = 1
  found : ∀ found ∈ tokens, found.token ≠ .endOfInput

/-- The run is one that lists the tokens of its input, and its input delivers these bytes. -/
inductive Lists (conventions : Conventions) (environment : Environment) (bytes : List UInt8) : Prop
    where
  | mk {options : Options} {settings : Settings} {script : List Fill}
    (parsed : conventions.options environment.arguments = .ok options)
    (wanted : options.listTokens = true) (settled : Cli.settings options = .ok settings)
    (input : inputOf environment options = .ok (.ofScript script))
    (supplies : Fill.Supplies script bytes)

variable {conventions : Conventions} {environment other : Environment} {bytes bytes' : List UInt8}
  {found : LocatedToken} {tokens tokens' : List LocatedToken}

/-! ### Lines and columns -/

theorem toList_row (found : LocatedToken) :
    (row found).toList = found.location.text.toList ++ '\t' :: found.token.text.toList := by
  simp [row, Location.text]

theorem toList_tokenLine (found : LocatedToken) : (tokenLine found).toList =
    found.location.text.toList ++ '\t' :: (found.token.text.toList ++ ['\n']) := by
  simp [tokenLine]

/-- Listings of spelled tokens tell the tokens. -/
theorem eq_of_join_eq (spelled : ∀ found ∈ tokens, found.token.IsSpelled)
    (spelled' : ∀ found ∈ tokens', found.token.IsSpelled)
    (same : String.join (tokens.map tokenLine) = String.join (tokens'.map tokenLine)) :
    tokens = tokens' := by
  induction tokens generalizing tokens' with
  | nil =>
    cases tokens' with
    | nil => rfl
    | cons found tokens' =>
      have chars := congrArg String.toList same
      simp [toList_tokenLine] at chars
  | cons found tokens ih =>
    cases tokens' with
    | nil =>
      have chars := congrArg String.toList same
      simp [toList_tokenLine] at chars
    | cons found' tokens' =>
      obtain ⟨first, others⟩ := List.forall_mem_cons.mp spelled
      obtain ⟨first', others'⟩ := List.forall_mem_cons.mp spelled'
      have chars := congrArg String.toList same
      simp only [List.map_cons, String.join_cons, String.toList_append, toList_tokenLine,
        List.append_assoc, List.cons_append, List.nil_append] at chars
      -- The tab ends the place, and the newline ends the token.
      obtain ⟨places, behind⟩ := (IsPrintable.location _).cut (by decide) (.location _) chars
      obtain ⟨texts, rest⟩ := first.isPrintable_text.cut (by decide) first'.isPrintable_text behind
      obtain rfl := ih others others' (String.toList_inj.mp rest)
      obtain ⟨token, location⟩ := found
      obtain ⟨token', location'⟩ := found'
      obtain rfl := Location.text_injective places
      obtain rfl := Token.eq_of_text_eq first first' texts
      rfl

theorem isListing (spelled : ∀ found ∈ tokens, found.token.IsSpelled) :
    IsListing (String.join (tokens.map tokenLine)) tokens where
  lines := rfl
  newline found member := by
    have place : '\n' ∉ found.location.text.toList := (IsPrintable.location _).notMem (by decide)
    have token : '\n' ∉ found.token.text.toList :=
      (spelled found member).isPrintable_text.notMem (by decide)
    simp [toList_row, place, token]
  tab found member := by
    have place : '\t' ∉ found.location.text.toList := (IsPrintable.location _).notMem (by decide)
    have token : '\t' ∉ found.token.text.toList :=
      (spelled found member).isPrintable_text.notMem (by decide)
    rw [toList_row, List.count_append, List.count_cons_self, List.count_eq_zero.mpr place,
      List.count_eq_zero.mpr token]
  found found member finished :=
    Token.not_isSpelled_endOfInput (finished ▸ spelled found member)

/-! ### Runs -/

theorem Lists.output_eq (lists : Lists conventions environment bytes) :
    (conventions.run environment).output =
      String.join ((locatedTokens (Utf8.text bytes)).map tokenLine) := by
  obtain ⟨parsed, wanted, settled, input, supplies⟩ := lists
  have chars := LineReader.ahead_of_supplies supplies
  simp only [Conventions.run, parsed, Conventions.follow, settled, input, wanted, if_true,
    listTokens]
  rw [TokenSource.toList_drain, List.nil_append, Lexer.ahead_ofSource_eq chars]

/-- The listing of an input is as good as its tokens: two listings are the same exactly if the
inputs are read as the same tokens at the same places, numbers bit for bit. -/
theorem output_eq_iff_of_lists (lists : Lists conventions environment bytes)
    (lists' : Lists conventions other bytes') :
    ((conventions.run environment).output = (conventions.run other).output ↔
        locatedTokens (Utf8.text bytes) = locatedTokens (Utf8.text bytes')) ∧
      IsListing (conventions.run environment).output (locatedTokens (Utf8.text bytes)) := by
  have spelled (text : String) : ∀ found ∈ locatedTokens text, found.token.IsSpelled := by
    rw [locatedTokens, TokenSource.toList_drain]
    exact Lexer.isSpelled_of_mem_ahead _
  rw [lists.output_eq, lists'.output_eq]
  exact ⟨⟨eq_of_join_eq (spelled _) (spelled _), fun same => by rw [same]⟩, isListing (spelled _)⟩

/-- The second input writes the number in another way and has a comment, and the reading of it is
interrupted. -/
theorem output_eq_iff_of_lists_of_same_tokens :
    let bytes := "x*1.0\n'".toUTF8.toList
    let bytes' := "x*1 #\n'".toUTF8.toList
    let environment : Environment :=
      ⟨["--tokens", "f"], [], fun _ => .ok [.bytes bytes], none⟩
    let other : Environment :=
      ⟨["--tokens", "-p", "'=1"], [.interrupted, .bytes bytes'], fun path => .error path, none⟩
    Lists .standard environment bytes ∧ Lists .standard other bytes' ∧
      (run environment).output = (run other).output := by
  intro bytes bytes' environment other
  have parsed : Conventions.standard.options environment.arguments =
      .ok ⟨some "f", false, false, true, false, 0, []⟩ := by decide
  have parsed' : Conventions.standard.options other.arguments =
      .ok ⟨none, false, false, true, false, 0, ["'=1"]⟩ := by decide
  have lists : Lists .standard environment bytes :=
    .mk parsed rfl rfl rfl (Fill.supplies_whole bytes)
  have lists' : Lists .standard other bytes' :=
    .mk parsed' rfl rfl rfl (.interrupted (Fill.supplies_whole bytes'))
  refine ⟨lists, lists', (output_eq_iff_of_lists lists lists').1.mpr ?_⟩
  decide +kernel

end Cli

end OpLang
