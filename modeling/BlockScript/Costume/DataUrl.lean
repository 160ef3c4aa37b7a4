import BlockScript.Text.Base64
import BlockScript.Text.Basic
import BlockScript.Text.Case
import BlockScript.Text.Percent

/-!
# Data URLs

A data URL holds a text itself: after the first comma, with its bytes escaped or in base 64. What
stands before the comma tells which.
-/

namespace BlockScript

/-- Why the drawing of a costume cannot be had. -/
inductive CostumeError where
  /-- A data URL has no comma. -/
  | invalidDataUrl
  /-- The payload of a data URL has a bad escape, or its bytes are no text. -/
  | escape (error : Percent.EscapeError)
  /-- The payload of a data URL is not base 64. -/
  | invalidBase64
  /-- The source is on another machine. -/
  | remote
  /-- The source is a file, and there is no folder to look in. -/
  | noFolder
  /-- The file of the source cannot be read. -/
  | unreadable (path reason : String)
  /-- The source holds no drawing. -/
  | noMarkup
deriving DecidableEq, Repr

/-- The wording of an error. -/
def CostumeError.message : CostumeError → String
  | invalidDataUrl => "invalid data URL"
  | escape .truncated => "truncated percent escape in data URL"
  | escape (.invalid digits) => s!"invalid percent escape '%{digits}' in data URL"
  | escape .notUtf8 => "data URL payload is not UTF-8"
  | invalidBase64 => "invalid base64 data URL payload"
  | remote => "remote svg sources are not supported, use a data URL or a local file"
  | noFolder => "use a data URL or inline <svg> markup"
  | unreadable path reason => s!"cannot read '{path}': {reason}"
  | noMarkup => "source does not include svg markup"

namespace DataUrl

/-- What a data URL of a drawing starts with. -/
def header : String := "data:image/svg+xml;utf8,"

/-- The data URL of a drawing. -/
def ofMarkup (markup : String) : String :=
  header ++ Percent.encode markup

/-- The text that a payload in base 64 stands for. -/
def decodeBase64 (payload : List Char) : Except CostumeError String :=
  match Base64.decode? payload with
  | none => .error .invalidBase64
  | some bytes =>
    match Text.ofUtf8? bytes with
    | some text => .ok text
    | none => .error (.escape .notUtf8)

/-- The text of a data URL. -/
def decode (url : String) : Except CostumeError String :=
  match Chars.splitFirst? [','] url.toList with
  | none => .error .invalidDataUrl
  | some (head, payload) =>
    if Chars.contains ";base64".toList (head.map Text.asciiLowerChar) then decodeBase64 payload
    else (Percent.decode (String.ofList payload)).mapError .escape

end DataUrl

end BlockScript
