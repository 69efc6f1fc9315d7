import FlowTrace.Text.Basic

/-! # Markup escaping

The five characters that end or open something in markup are written as character references;
all other bytes stand for themselves. -/

namespace FlowTrace.Text

/-- The escaped form of one byte. -/
def escapeByte (c : UInt8) : Text :=
  if c == '&' then "&amp;"
  else if c == apostrophe then "&#39;"
  else if c == '<' then "&lt;"
  else if c == '>' then "&gt;"
  else if c == doubleQuote then "&#34;"
  else [c]

/-- The text as it is written inside markup. -/
def escapeMarkup (t : Text) : Text := t.flatMap escapeByte

@[simp] theorem escapeMarkup_nil : escapeMarkup [] = [] := rfl

@[simp] theorem escapeMarkup_cons (c : UInt8) (t : Text) :
    escapeMarkup (c :: t) = escapeByte c ++ escapeMarkup t := rfl

/-- Texts behind each other are escaped one after the other. -/
@[simp] theorem escapeMarkup_append (s t : Text) :
    escapeMarkup (s ++ t) = escapeMarkup s ++ escapeMarkup t := List.flatMap_append

end FlowTrace.Text
