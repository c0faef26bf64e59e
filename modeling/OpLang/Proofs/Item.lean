import OpLang.Proofs.Readability
import OpLang.Proofs.Token

/-! # Items take one line

Names and numbers are printable, and an operator is no newline, as it is not blank. So the text of
an item that comes from a text never takes more than one line.
-/

namespace OpLang

theorem IsName.oneLine {name : String} (isName : IsName name) : OneLine name :=
  isName.isPrintable.oneLine

theorem IsSign.ne_newline {char : Char} (sign : IsSign char) : '\n' ≠ char := by
  rintro rfl
  exact absurd sign.notBlank (by decide)

theorem Expr.Sound.oneLine {operators : Operators} {tree : Expr} (sound : tree.Sound operators) :
    OneLine tree.text := by
  induction sound with
  | number met =>
    rw [text]
    exact (Binary64.isPrintable_text met.1 met.2).oneLine
  | «variable» met =>
    rw [text]
    exact IsName.oneLine met
  | binary met _ _ left right =>
    have operator := met.2.1.ne_newline
    rw [OneLine] at left right ⊢
    simp [operator, left, right]
  | call met _ inside =>
    have callee := IsName.oneLine met
    rw [OneLine] at callee ⊢
    simp only [OneLine] at inside
    simpa [callee] using inside

theorem Prototype.oneLine {prototype : Prototype} (name : OneLine prototype.name)
    (parameters : ∀ parameter ∈ prototype.parameters, OneLine parameter) :
    OneLine prototype.text := by
  rw [OneLine] at name ⊢
  rw [toList_text]
  cases listed : prototype.parameters with
  | nil => simp [name]
  | cons first others =>
    rw [listed] at parameters
    obtain ⟨begins, rest⟩ := List.forall_mem_cons.mp parameters
    simp only [OneLine] at begins rest
    rw [toList_intercalate_cons]
    simpa [name, begins] using rest

namespace Item

variable {settings : Settings} {kind : ItemKind} {item : Item}

theorem Sound.oneLine_name (sound : item.Sound settings kind) : OneLine item.prototype.name := by
  by_cases bare : kind = .expression
  · cases item with
    | declaration prototype =>
      have declared := sound.declares.mpr ⟨prototype, rfl⟩
      rw [bare] at declared
      contradiction
    | function defined =>
      have anonymous : defined.prototype.name = Prototype.anonymousName :=
        beq_iff_eq.mp ((sound.anonymous defined rfl).mpr bare)
      change OneLine defined.prototype.name
      rw [anonymous]
      decide
  · exact (sound.name bare).oneLine

/-- Items that can be relied on take one line. -/
theorem Sound.oneLine (sound : item.Sound settings kind) : OneLine item.text := by
  have prototype : OneLine item.prototype.text := Prototype.oneLine sound.oneLine_name
    fun parameter member => (sound.parameters parameter member).oneLine
  cases item with
  | declaration prototype => exact (OneLine.append (by decide) prototype).append (by decide)
  | function defined =>
    have body := (sound.body defined rfl).oneLine
    have head : OneLine ("(def " ++ defined.prototype.text) := .append (by decide) prototype
    exact ((head.append (by decide)).append body).append (by decide)

end Item

end OpLang
