import MarkdownModule.Text.Basic

/-!
# What can be wrong with a YAML text

Each error is a cause; `Yaml.Error.message` says it in words.
-/

namespace MarkdownModule.Yaml

/-- why a text has no YAML value, or none with a JSON form -/
inductive Error where
  /-- a character that may not stand in a text -/
  | controlCharacter
  /-- a character that begins no token -/
  | strayCharacter
  /-- a token that may not stand where it stands -/
  | misplacedToken
  /-- a key that may not be left without its colon -/
  | missingColon
  /-- a tab where spaces are asked for -/
  | tabIndentation
  /-- a directive that is not well formed -/
  | malformedDirective
  | malformedAnchor
  | malformedTag
  | malformedBlockHead
  | unknownEscape
  | unclosedQuote
  | unknownHandle
  /-- an alias to an anchor that does not stand before it -/
  | unknownAnchor
  | manyDocuments
  | tooDeep
  | tooManyAliases
  /-- a scalar that is not what its tag says, or an integer that is too large -/
  | wrongScalar
  | duplicateKey
  /-- a key that cannot be the key of an object -/
  | keyNotText
deriving DecidableEq

def Error.message : Error → Text
  | .controlCharacter => "control characters are not allowed".toList
  | .strayCharacter => "found a character that cannot start any token".toList
  | .misplacedToken => "found a token that is not allowed in this context".toList
  | .missingColon => "could not find expected ':'".toList
  | .tabIndentation => "found a tab character where an indentation space is expected".toList
  | .malformedDirective => "did not find a valid directive".toList
  | .malformedAnchor => "did not find expected name of an anchor".toList
  | .malformedTag => "did not find a valid tag".toList
  | .malformedBlockHead => "did not find expected comment or line break".toList
  | .unknownEscape => "found unknown escape character".toList
  | .unclosedQuote => "found unexpected end of a quoted scalar".toList
  | .unknownHandle => "found undefined tag handle".toList
  | .unknownAnchor => "unknown anchor".toList
  | .manyDocuments => "more than one document in the stream".toList
  | .tooDeep => "recursion limit exceeded".toList
  | .tooManyAliases => "repetition limit exceeded".toList
  | .wrongScalar => "the scalar does not have the type of its tag".toList
  | .duplicateKey => "duplicate entry in a mapping".toList
  | .keyNotText => "a key must be a string".toList

end MarkdownModule.Yaml
