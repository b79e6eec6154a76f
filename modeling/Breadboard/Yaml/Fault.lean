/-
  Breadboard.Yaml.Fault — why a text is no document of the settings' format.
-/

import Breadboard.Text.Basic

namespace Breadboard.Yaml

inductive Fault where
  | forbiddenCharacter (c : Char)
  | strayCharacter (c : Char)
  | tabInIndentation
  | unclosedQuote
  | unknownEscape
  | strayColon
  | keyWithoutColon
  | misplacedEntry
  | misplacedKey
  | misplacedValue
  | documentMarkInQuote
  | contentExpected
  | separatorExpected
  | keyExpected
  | entryExpected
  | secondDocument
  | tooDeep
  deriving DecidableEq, Repr

def Fault.message : Fault → Text
  | forbiddenCharacter _ => "control characters are not allowed".toList
  | strayCharacter _ => "found character that cannot start any token".toList
  | tabInIndentation => "found a tab character that violates indentation".toList
  | unclosedQuote => "found unexpected end of a quoted scalar".toList
  | unknownEscape => "found unknown escape character".toList
  | strayColon => "found unexpected colon in a plain scalar".toList
  | keyWithoutColon => "could not find the colon after a key".toList
  | misplacedEntry => "block sequence entries are not allowed here".toList
  | misplacedKey => "mapping keys are not allowed here".toList
  | misplacedValue => "mapping values are not allowed here".toList
  | documentMarkInQuote => "found a document mark in a quoted scalar".toList
  | contentExpected => "did not find expected node content".toList
  | separatorExpected => "did not find expected comma or closing bracket".toList
  | keyExpected => "did not find expected key".toList
  | entryExpected => "did not find expected entry".toList
  | secondDocument => "found more than one document".toList
  | tooDeep => "collections are nested too deep".toList

end Breadboard.Yaml
