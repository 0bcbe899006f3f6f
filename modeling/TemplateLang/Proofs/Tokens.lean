import TemplateLang.Token.Basic

/-!
# TemplateLang.Proofs.Tokens — tokens as terminals

What a reader asks of a token is its kind and its text, and never its place. `Is` is that question;
the tests of the readers are stated with it.
-/

namespace TemplateLang

/-- **`t.Is kind text`** — the token is of this kind and has this text. -/
def Token.Is (t : Token) (kind : TokenKind) (text : String) : Prop :=
  t.kind = kind ∧ t.text = text

namespace Token

theorem isExactly_iff {t : Token} {kind : TokenKind} {text : String} :
    t.isExactly kind text = true ↔ t.Is kind text := by
  rw [isExactly, Bool.and_eq_true, beq_iff_eq, beq_iff_eq, Token.Is]

theorem isDelimiter_iff {t : Token} {text : String} :
    t.isDelimiter text = true ↔ t.Is .delimiter text :=
  isExactly_iff

theorem isCloser_iff {t : Token} :
    t.isCloser = true ↔ t.Is .delimiter "\x7d\x7d" ∨ t.Is .delimiter "%\x7d" := by
  rw [isCloser, Bool.or_eq_true, isDelimiter_iff, isDelimiter_iff]
  rfl

theorem isOperand_iff {t : Token} :
    t.isOperand = true ↔ t.kind = .word ∨ t.kind = .quoted ∨ t.kind = .text := by
  rw [isOperand, Bool.or_eq_true, Bool.or_eq_true, beq_iff_eq, beq_iff_eq, beq_iff_eq, or_assoc]

end Token

end TemplateLang
