import EffectHost.Proofs.Code.Cuts
import EffectHost.Proofs.Code.Lookahead
import EffectHost.Proofs.Code.Programs

/-!
# Where code is faulty

Code that does not compile has a place that is to blame.  Either the code cannot be cut any
further there, or a token begins there: the first one with which the tokens before it cannot go
on, or the last one where they would have to go on.  The fault has the line of this place.
-/

namespace EffectHost
namespace Code

/-- A fault and the rest of the code from the place that is to blame for it. -/
inductive Blames (text : List Char) : Fault → List Char → Prop where
  | unreadable {line : ℕ} {cause : Cause} {tokens : List Token} {piece : List Char}
      (cut : Cut 0 text tokens line piece) (unreadable : Unreadable cause piece) :
      Blames text ⟨line, cause⟩ piece
  | refused {last : ℕ} {cause : Cause} {before after : List Token} {token : Token}
      {word behind : List Char} (cut : Cut 0 text (before ++ token :: after) last [])
      (here : Cut 0 text before token.line (word ++ behind)) (heads : Heads token.lexeme word behind)
      (refused : RefusedBehind before (some token) cause) :
      Blames text ⟨token.line, cause⟩ (word ++ behind)
  /-- The code ends behind its last token, where it cannot end. -/
  | ended {last : ℕ} {cause : Cause} {before : List Token} {token : Token}
      {word behind : List Char} (cut : Cut 0 text (before ++ [token]) last [])
      (here : Cut 0 text before token.line (word ++ behind)) (heads : Heads token.lexeme word behind)
      (refused : RefusedBehind (before ++ [token]) none cause) :
      Blames text ⟨token.line, cause⟩ (word ++ behind)

theorem startsNumber_ne_nil {text : List Char} (starts : startsNumber text = true) : text ≠ [] := by
  rintro rfl
  cases starts

theorem Heads.ne_nil {lexeme : Lexeme} {word behind : List Char}
    (heads : Heads lexeme word behind) : word ++ behind ≠ [] := by
  cases heads with
  | number starts => exact startsNumber_ne_nil starts
  | name | text => exact List.cons_ne_nil _ _
  | symbol => cases ‹Symbol› <;> exact List.cons_ne_nil _ _

theorem Unreadable.ne_nil {cause : Cause} {piece : List Char} (unreadable : Unreadable cause piece) :
    piece ≠ [] := by
  cases unreadable with
  | number starts => exact startsNumber_ne_nil starts
  | comment | text | character => exact List.cons_ne_nil _ _

namespace Blames

variable {text piece : List Char} {fault : Fault}

/-- The line of the place is counted from zero. -/
theorem exists_front (blames : Blames text fault piece) :
    ∃ front, text = front ++ piece ∧ fault.line = lineFeeds front := by
  cases blames with
  | unreadable cut | refused _ cut | ended _ cut =>
      rcases cut.exists_front with ⟨front, parted, line⟩
      exact ⟨front, parted, line.trans (Nat.zero_add _)⟩

theorem ne_nil (blames : Blames text fault piece) : piece ≠ [] := by
  cases blames with
  | unreadable _ unreadable => exact unreadable.ne_nil
  | refused _ _ heads | ended _ _ heads => exact heads.ne_nil

end Blames

/-- No program is refused at its end that has no tokens. -/
theorem not_refusedBehind_nil {cause : Cause} : ¬ RefusedBehind [] none cause := by
  intro refused
  have failed := refused.here [] rfl
  rw [List.append_nil, program, statementsBehind] at failed
  cases failed

theorem Stop.line_nil (cause : Cause) (before : List Token) (token : Token) :
    Stop.line ⟨cause, []⟩ (before ++ [token]) = token.line := by
  rw [Stop.line, List.getLast?_append]
  rfl

/-- What is refused begins with a token, or the last token is at its end. -/
theorem exists_blames_of_refused {text : List Char} {read unread : List Token} {last : ℕ}
    {cause : Cause} (cut : Cut 0 text (read ++ unread) last [])
    (refused : RefusedBehind read unread.head? cause) :
    ∃ piece, Blames text ⟨Stop.line ⟨cause, unread⟩ (read ++ unread), cause⟩ piece := by
  cases unread with
  | cons token after =>
      rcases cut.exists_token with ⟨word, behind, here, heads⟩
      exact ⟨_, .refused cut here heads refused⟩
  | nil =>
      rw [List.append_nil] at cut ⊢
      rcases List.eq_nil_or_concat read with rfl | ⟨before, token, rfl⟩
      · exact absurd refused not_refusedBehind_nil
      · rw [List.concat_eq_append] at cut refused ⊢
        rcases cut.exists_token with ⟨word, behind, here, heads⟩
        rw [Stop.line_nil]
        exact ⟨_, .ended cut here heads refused⟩

/-- The fault of code is that of the place to blame for it. -/
theorem fault?_eq_some_iff {source : String} {fault : Fault} :
    fault? source = some fault ↔ ∃ piece, Blames source.toList fault piece := by
  constructor
  · intro found
    rw [fault?] at found
    split at found
    · next scanned =>
        cases found
        rcases Token.scan_eq_error_iff.mp scanned with ⟨tokens, piece, cut, unreadable⟩
        exact ⟨piece, .unreadable cut unreadable⟩
    · next tokens scanned =>
        rcases Token.scan_eq_ok_iff.mp scanned with ⟨last, cut⟩
        split at found
        · cases found
        · next stop stopped =>
            cases found
            rcases refusedBehind_of_program stopped with ⟨read, rfl, refused⟩
            exact exists_blames_of_refused cut refused
  · rintro ⟨piece, blames⟩
    rw [fault?]
    cases blames with
    | @unreadable line cause tokens piece cut unreadable =>
        have scanned : Token.scan source = .error ⟨line, cause⟩ :=
          Token.scan_eq_error_iff.mpr ⟨tokens, piece, cut, unreadable⟩
        rw [scanned]
    | @refused last cause before after token _ _ cut here heads refused =>
        rw [Token.scan_eq_ok_iff.mpr ⟨last, cut⟩]
        dsimp only
        rw [refused.here (token :: after) rfl]
        rfl
    | @ended last cause before token _ _ cut here heads refused =>
        have stopped := refused.here [] rfl
        rw [List.append_nil] at stopped
        rw [Token.scan_eq_ok_iff.mpr ⟨last, cut⟩]
        dsimp only
        rw [stopped]
        exact congrArg some (congrArg (Fault.mk · cause) (Stop.line_nil cause before token))

end Code
end EffectHost
