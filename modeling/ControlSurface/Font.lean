/-
  ControlSurface.Font
  ───────────────────
  Fonts: the ones that are known by name, the ones that elements use, and the files that are
  shipped for them.  Every used font that is not a system font needs a file of the project; two
  fonts never share a file name, and large files are reported.
-/
import ControlSurface.Path
import ControlSurface.Project.Reader
import ControlSurface.Stylesheet.Rule
import ControlSurface.Text.Base64

namespace ControlSurface

open ControlSurface.Text

/-! ## §1. Known fonts. -/

/-- A font that is known by name.  Without a file it is a system font. -/
structure KnownFont where
  name : String
  family : String
  file : String
  category : String
  deriving Repr, DecidableEq, Inhabited

namespace KnownFont

/-- Whether every system has the font. -/
def isSystem (f : KnownFont) : Bool := f.file == ""

/-- The fonts that are known. -/
def all : List KnownFont :=
  [⟨"Inter", "Inter", "Inter-Regular.woff2", "sans-serif"⟩,
   ⟨"Roboto", "Roboto", "Roboto-Regular.woff2", "sans-serif"⟩,
   ⟨"Roboto Mono", "Roboto Mono", "RobotoMono-Regular.woff2", "monospace"⟩,
   ⟨"Arial", "Arial, sans-serif", "", "sans-serif"⟩,
   ⟨"Helvetica", "Helvetica, Arial, sans-serif", "", "sans-serif"⟩,
   ⟨"Verdana", "Verdana, sans-serif", "", "sans-serif"⟩,
   ⟨"Tahoma", "Tahoma, sans-serif", "", "sans-serif"⟩,
   ⟨"Georgia", "Georgia, serif", "", "serif"⟩,
   ⟨"Times New Roman", "Times New Roman, serif", "", "serif"⟩,
   ⟨"Courier New", "Courier New, monospace", "", "monospace"⟩,
   ⟨"Monaco", "Monaco, monospace", "", "monospace"⟩]

/-- The known font of a name or family. -/
def find? (family : String) : Option KnownFont :=
  all.find? fun f => f.family == family || f.name == family

end KnownFont

namespace Font

/-- The value of a font declaration, with a fallback after the family. -/
def stack (family : String) : String :=
  match KnownFont.find? family with
  | some f => if f.isSystem then f.family else s!"'{family}', {f.category}"
  | none => s!"'{family}', sans-serif"

/-- Strings in order of their code points, each once. -/
def sortedOnce (names : List String) : List String :=
  (names.mergeSort fun a b => decide (a ≤ b)).eraseDups

/-- The families that elements use, sorted. -/
def used (elements : List Element) : List String :=
  sortedOnce (elements.filterMap fun e => do
    let family := e.get (← e.kind.fontField?)
    if family.truthy then some family.toText else none)

end Font

/-! ## §2. Shipped fonts. -/

/-- A font file that is shipped. -/
structure BundledFont where
  family : String
  filename : String
  data : List UInt8
  deriving Repr, DecidableEq, Inhabited

namespace BundledFont

/-- The extension of the file in lower case. -/
def extension (f : BundledFont) : String :=
  let suffix := (Path.ofString f.filename).suffix.toList
  match lower (trimStartBy (· = '.') suffix) with
  | [] => "woff2"
  | cs => String.ofList cs

/-- The format that a stylesheet gives for the file. -/
def format (f : BundledFont) : String :=
  match f.extension with
  | "ttf" => "truetype"
  | "otf" => "opentype"
  | "woff" => "woff"
  | _ => "woff2"

/-- The media type of the file. -/
def mediaType (f : BundledFont) : String :=
  match f.extension with
  | "otf" => "font/otf"
  | "woff" => "font/woff"
  | "woff2" => "font/woff2"
  | _ => "font/ttf"

/-- The file as a URL that holds all its bytes. -/
def dataUrl (f : BundledFont) : String :=
  s!"data:{f.mediaType};base64,{String.ofList (Base64.encode f.data)}"

/-- The rule that makes the font known to a stylesheet, its files lying at some place. -/
def faceRule (f : BundledFont) (place : String) : Stylesheet.Rule :=
  ⟨"@font-face", [
    ("font-family", [s!"'{f.family}'"]),
    ("src", [s!"url('{place}{f.filename}') format('{f.format}')"]),
    ("font-weight", ["normal"]), ("font-style", ["normal"]), ("font-display", ["swap"])]⟩

end BundledFont

/-! ## §3. Choosing the files. -/

namespace Font

/-- A file of more bytes than this is reported. -/
def largeFile : Nat := 500 * 1024

/-- Files of more bytes together than this are reported. -/
def largeTotal : Nat := 2 * 1024 * 1024

/-- The fonts to ship, what to report, the names in use and the bytes so far. -/
structure Shipment where
  fonts : List BundledFont
  warnings : List String
  total : Nat
  deriving Inhabited

/-- A quotient with some decimals. -/
def quotientText (places num den : Nat) : String :=
  String.ofList (Number.fixed places ((Number.ofRatio? false num den).getD 0.0))

/-- The first of `stem-count suffix`, `stem-(count+1) suffix`, … that is not taken.  Among one more
counts than there are taken names one is free, which bounds the search. -/
def freeName (taken : List String) (stem suffix : String) : Nat → Nat → String
  | 0, count => s!"{stem}-{count}{suffix}"
  | left + 1, count =>
    let name := s!"{stem}-{count}{suffix}"
    if taken.contains name then freeName taken stem suffix left (count + 1) else name

/-- The name under which a font is shipped, before others are looked at. -/
def fileName (family : String) (known : Option KnownFont) (filename : String) : String :=
  match (if filename = "" then "" else (Path.ofString filename).name) with
  | "" => match known with
    | some f => f.file
    | none => Text.replace family " " "" ++ ".woff2"
  | name => name

/-- The first asset of a family that has a file. -/
def asset? (assets : List FontAsset) (family : String) : Option FontAsset :=
  assets.find? fun a => a.family.truthy && a.encoded.truthy && a.family.same (.text family)

/-- Adds one family to the shipment. -/
def ship (assets : List FontAsset) (s : Shipment) (family : String) : Except Fault Shipment := do
  let known := KnownFont.find? family
  -- what every system has is not shipped
  if (known.map KnownFont.isSystem).getD false then return s
  let warn (text : String) : Shipment := { s with warnings := s.warnings ++ [text] }
  match asset? assets family with
  | none =>
    return warn s!"Font \"{family}\" has no bundled file; the host will fall back to a system font"
  | some asset =>
    let encoded ← asset.encoded.string
    match Base64.decode? encoded.toList with
    | none => return warn s!"Font \"{family}\" could not be decoded and was skipped"
    | some data =>
      let given ← if asset.filename.truthy then
          match asset.filename with
          | .text t => .ok t
          | _ => .error .wrongType
        else .ok ""
      let name := fileName family known given
      -- names are compared with those that are shipped, so a new name is not taken either
      let taken := s.fonts.map BundledFont.filename
      let clash := taken.contains name
      let path := Path.ofString name
      let shipped :=
        if clash then freeName taken path.stem path.suffix (taken.length + 1) 2 else name
      let renamed := if clash then
          [s!"Font \"{family}\" shares the file name {name} with another font; "
            ++ s!"shipped as {shipped}"]
        else []
      let size := data.length
      let large := if largeFile < size then
          [s!"Font \"{family}\" is large ({quotientText 1 size 1024}KB) - "
            ++ "consider subsetting or using web fonts"]
        else []
      return { fonts := s.fonts ++ [⟨family, shipped, data⟩]
               warnings := s.warnings ++ renamed ++ large
               total := s.total + size }

/-- The fonts to ship for some families, one for each that has a usable file, and what to report. -/
def resolve (families : List String) (assets : List FontAsset) :
    Except Fault (List BundledFont × List String) := do
  let s ← families.foldlM (ship assets) ⟨[], [], 0⟩
  let heavy := if largeTotal < s.total then
      [s!"Total bundled font size is {quotientText 2 s.total (1024 * 1024)}MB - "
        ++ "this may impact load time"]
    else []
  return (s.fonts, s.warnings ++ heavy)

end Font

end ControlSurface
