import ExprLang.Token

/-!
# Grammar errors

A grammar error says where tokens cease to spell a program, what was expected there and what was
found; nothing is found where the tokens end.  Its cause may carry a context added by whoever passed it on.
-/

namespace ExprLang

/-- Why a list of tokens is not a program. -/
inductive Cause where
  | endOfInput
  | unexpectedToken
  | unexpectedLiteral
  /-- Any other reason, in its own words. -/
  | other (message : Text)
  /-- A cause met while doing what `context` says. -/
  | within (context : Text) (cause : Cause)
  deriving DecidableEq

namespace Cause

/-- The cause without its contexts. -/
def root : Cause → Cause
  | .within _ c => c.root
  | c => c

/-- The wording of a cause, after its contexts. -/
def message : Cause → Text
  | .endOfInput => utf8 "unexpected end of input"
  | .unexpectedToken => utf8 "unexpected token"
  | .unexpectedLiteral => utf8 "unexpected literal"
  | .other message => message
  | .within context c => context ++ utf8 ": " ++ c.message

end Cause

/-- A place where tokens cease to spell a program. -/
structure GrammarError where
  cause : Cause
  loc : Location
  expected : List Kind
  found : Option Token
  deriving DecidableEq

namespace GrammarError

/-- The wording of a grammar error.  Where a literal is missing it names the kind of what was found;
otherwise it gives the text that was found and the kinds that were expected. -/
def message (e : GrammarError) : Text :=
  let wanted := utf8 ", expected: " ++ Text.join (utf8 " or ") (e.expected.map Kind.name)
  e.loc.text ++ utf8 ": " ++ e.cause.message ++
    match e.cause.root, e.found with
    | .unexpectedLiteral, none => utf8 ": end of input"
    | .unexpectedLiteral, some t => utf8 ": " ++ t.kind.name
    | _, none => wanted
    | _, some t => utf8 ": " ++ t.value ++ wanted

end GrammarError

end ExprLang
