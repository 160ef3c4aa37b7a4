import BlockScript.Costume.Drawing
import BlockScript.Text.Digest

/-!
# Costumes

A costume is a drawing with the name of the file that holds it and the point it turns about. The
source of a costume is the drawing itself, a data URL, or the path of a file; `Costume.resolve`
makes the costume of a source, given a way to read files, if there is one.
-/

namespace BlockScript

/-- A drawing that a target wears. -/
structure Costume where
  /-- The identifier of its file. -/
  assetId : String
  /-- The drawing. -/
  markup : String
  /-- The point it turns about. -/
  center : Drawing.Center
deriving DecidableEq, Repr

namespace Costume

/-- The name of the file of a costume. -/
def fileName (c : Costume) : String :=
  c.assetId ++ ".svg"

/-- The costume of a drawing; its file is named for its content. -/
def ofMarkup (markup : String) : Costume :=
  ⟨Text.digest markup, markup, Drawing.center markup⟩

/-! ### Costumes of targets that have none -/

/-- The backdrop of the stage. -/
def stage : Costume where
  assetId := "6821a718a962852e3796b6273aaeb291"
  markup :=
    "<svg xmlns=\"http://www.w3.org/2000/svg\" width=\"480\" height=\"360\" viewBox=\"0 " ++
    "0 480 360\">" ++
    "<defs>" ++
    "<linearGradient id=\"bg\" x1=\"0\" y1=\"0\" x2=\"1\" y2=\"1\">" ++
    "<stop offset=\"0%\" stop-color=\"#a7e7ff\"/>" ++
    "<stop offset=\"100%\" stop-color=\"#f9f7d9\"/>" ++
    "</linearGradient>" ++
    "</defs>" ++
    "<rect width=\"480\" height=\"360\" fill=\"url(#bg)\"/>" ++
    "</svg>"
  center := ⟨Binary64.ofNat 240, Binary64.ofNat 180⟩

/-- The costume of a sprite without one of its own. -/
def sprite : Costume where
  assetId := "ff8acd23f6a612cc18fa5614002d9933"
  markup :=
    "<svg xmlns=\"http://www.w3.org/2000/svg\" width=\"96\" height=\"96\" viewBox=\"0 0 " ++
    "96 96\">" ++
    "<circle cx=\"48\" cy=\"48\" r=\"34\" fill=\"#ff9f1c\" stroke=\"#2e2e2e\" " ++
    "stroke-width=\"6\"/>" ++
    "<circle cx=\"36\" cy=\"40\" r=\"5\" fill=\"#2e2e2e\"/>" ++
    "<circle cx=\"60\" cy=\"40\" r=\"5\" fill=\"#2e2e2e\"/>" ++
    "<path d=\"M30 58 Q48 72 66 58\" stroke=\"#2e2e2e\" stroke-width=\"5\" fill=\"none\" " ++
    "stroke-linecap=\"round\"/>" ++
    "</svg>"
  center := ⟨Binary64.ofNat 48, Binary64.ofNat 48⟩

/-! ### Sources -/

/-- What the source of a costume is. -/
inductive Source where
  /-- Nothing. -/
  | blank
  /-- A data URL. -/
  | dataUrl (url : String)
  /-- A drawing. -/
  | inline (text : String)
  /-- The address of a file on another machine. -/
  | remote
  /-- The path of a file. -/
  | file (path : String)
deriving DecidableEq, Repr

/-- What the source of a costume is, by what it starts with. -/
def Source.ofText (source : String) : Source :=
  let value := Text.trim source
  let lowered := Text.asciiLower value
  if value.isEmpty then .blank
  else if Text.startsWith value "data:" then .dataUrl value
  else if Text.startsWith value "<svg" then .inline value
  else if Text.startsWith lowered "http://" || Text.startsWith lowered "https://" then .remote
  else .file value

/-- The costume of a text that holds a drawing. -/
def ofText (text : String) : Except CostumeError Costume :=
  (Drawing.extract text).map ofMarkup

/-- Reads the file of a costume by the path that its source gives. -/
abbrev FileReader (m : Type → Type) := String → m (Except CostumeError String)

/-- The costume of a source. A blank source means the costume of a sprite without one. -/
def resolve {m : Type → Type} [Monad m] (fetch : Option (FileReader m)) (source : String) :
    m (Except CostumeError Costume) := do
  match Source.ofText source with
  | .blank => return .ok sprite
  | .dataUrl url => return DataUrl.decode url >>= ofText
  | .inline text => return ofText text
  | .remote => return .error .remote
  | .file path =>
    match fetch with
    | none => return .error .noFolder
    | some fetch => return (← fetch path) >>= ofText

end Costume

end BlockScript
