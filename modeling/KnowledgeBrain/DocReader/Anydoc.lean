import KnowledgeBrain.DocReader.ImageRewriting

/-!
# Office documents

A document of the office converter is a tree of blocks.  It is written as
Markdown by a walk over that tree; before, a second walk gives every picture
that has bytes the name under which the list of pictures holds it.
-/

namespace KnowledgeBrain
namespace DocReader
namespace Anydoc

open Foundation
open Chunker (Text trim strLines)

/-!
# Documents
-/

structure TextStyle where
  code : Bool
  bold : Bool
  italic : Bool
  strike : Bool
deriving DecidableEq

inductive LinkTarget where
  | external (url : Text)
  | relative (url : Text)
  | anchor (url : Text)
deriving DecidableEq

inductive ImageSource where
  | asset (id : Nat)
  | external (url : Text)
  | unavailable
deriving DecidableEq

inductive Inline where
  | text (text : Text) (style : TextStyle)
  | link (content : List Inline) (target : LinkTarget)
  | image (alt : Text) (source : ImageSource)
  | lineBreak
  | anchor (name : Text)
  | noteRef (id : Nat)

/-- The kinds of markers of a list; those that are no bullets by their names. -/
inductive MarkerKind where
  | bullet
  | numbered (style : String)
deriving DecidableEq

mutual

inductive Block where
  | heading (level : Nat) (content : List Inline)
  | paragraph (content : List Inline)
  | list (start : Nat) (marker : MarkerKind) (items : List Item)
  | table (grid : List (List CellSlot))
  | blockQuote (inner : List Block)
  | codeBlock (lang : Option Text) (text : Text)
  | rule

inductive Item where
  | mk (markerLabel : Option Text) (blocks : List Block)

inductive CellSlot where
  | origin (blocks : List Block)
  | covered

end

structure Asset where
  mediaType : Text
  bytes : List UInt8
deriving DecidableEq

structure Document where
  blocks : List Block
  notes : List (List Block)
  assets : List Asset

/-!
# Names of the pictures
-/

/-- `extension_for`. -/
def extensionFor (mediaType : Text) : Text :=
  let known := mediaType.map Char.toLower
  if known = "image/jpeg".toList ∨ known = "image/jpg".toList then ".jpg".toList
  else if known = "image/png".toList then ".png".toList
  else if known = "image/gif".toList then ".gif".toList
  else if known = "image/webp".toList then ".webp".toList
  else if known = "image/bmp".toList then ".bmp".toList
  else if known = "image/tiff".toList then ".tiff".toList
  else if known = "image/svg+xml".toList then ".svg".toList
  else ".bin".toList

/-- The name of the asset at place `i`. -/
def assetName (i : Nat) (asset : Asset) : Text :=
  "image-".toList ++ Nat.toDigits 10 (i + 1) ++ extensionFor asset.mediaType

def assetUrl (i : Nat) (asset : Asset) : Text :=
  "images/".toList ++ assetName i asset

/-- `images_from_document`. -/
def imagesFromDocument (doc : Document) : List StoredImage :=
  doc.assets.zipIdx.filterMap fun (asset, i) =>
    if asset.bytes = [] ∨ ¬ "image/".toList.isPrefixOf asset.mediaType then none
    else some ⟨assetName i asset, assetUrl i asset, [], asset.bytes⟩

def assetUrls (assets : List Asset) : List (Option Text) :=
  assets.zipIdx.map fun (asset, i) =>
    if asset.bytes = [] then none else some (assetUrl i asset)

/-!
# Rewriting the pictures
-/

section Rewriting

variable (urls : List (Option Text))

def rewriteSource : ImageSource -> ImageSource
  | .asset id =>
      match urls[id]? with
      | some (some url) => .external url
      | _ => .asset id
  | source => source

mutual

/-- `rewrite_inlines`. -/
def rewriteInlines : List Inline -> List Inline
  | [] => []
  | inline :: rest => rewriteInline inline :: rewriteInlines rest

def rewriteInline : Inline -> Inline
  | .image alt source => .image alt (rewriteSource urls source)
  | .link content target => .link (rewriteInlines content) target
  | .text text style => .text text style
  | .lineBreak => .lineBreak
  | .anchor name => .anchor name
  | .noteRef id => .noteRef id

end

mutual

/-- `rewrite_blocks`. -/
def rewriteBlocks : List Block -> List Block
  | [] => []
  | block :: rest => rewriteBlock block :: rewriteBlocks rest

def rewriteBlock : Block -> Block
  | .heading level content => .heading level (rewriteInlines urls content)
  | .paragraph content => .paragraph (rewriteInlines urls content)
  | .list start marker items => .list start marker (rewriteItems items)
  | .table grid => .table (rewriteRows grid)
  | .blockQuote inner => .blockQuote (rewriteBlocks inner)
  | .codeBlock lang text => .codeBlock lang text
  | .rule => .rule

def rewriteItems : List Item -> List Item
  | [] => []
  | .mk label blocks :: rest => .mk label (rewriteBlocks blocks) :: rewriteItems rest

def rewriteRows : List (List CellSlot) -> List (List CellSlot)
  | [] => []
  | row :: rest => rewriteRow row :: rewriteRows rest

def rewriteRow : List CellSlot -> List CellSlot
  | [] => []
  | .origin blocks :: rest => .origin (rewriteBlocks blocks) :: rewriteRow rest
  | .covered :: rest => .covered :: rewriteRow rest

end

end Rewriting

/-- `rewrite_asset_images`. -/
def rewriteAssetImages (doc : Document) : Document :=
  let urls := assetUrls doc.assets
  { doc with
    blocks := rewriteBlocks urls doc.blocks
    notes := doc.notes.map (rewriteBlocks urls) }

/-!
# Rendering
-/

def styled (text : Text) (style : TextStyle) : Text :=
  let text := if style.code then '\x60' :: text ++ ['\x60'] else text
  let text := if style.bold then "**".toList ++ text ++ "**".toList else text
  let text := if style.italic then '*' :: text ++ ['*'] else text
  if style.strike then "~~".toList ++ text ++ "~~".toList else text

def LinkTarget.url : LinkTarget -> Text
  | .external url => url
  | .relative url => url
  | .anchor url => url

mutual

/-- `render_inlines`. -/
def renderInlines : List Inline -> Text
  | [] => []
  | inline :: rest => renderInline inline ++ renderInlines rest

def renderInline : Inline -> Text
  | .text text style => styled text style
  | .link content target =>
      let label := renderInlines content
      if target.url = [] then label
      else '[' :: label ++ "](".toList ++ target.url ++ [')']
  | .image alt (.external url) => "![".toList ++ trim alt ++ "](".toList ++ url ++ [')']
  | .image alt (.asset _) => trim alt
  | .image alt .unavailable => trim alt
  | .lineBreak => ['\\', '\n']
  | .anchor _ => []
  | .noteRef _ => []

end

/-- `replace('|', "\\|")` and `replace('\n', " ")`. -/
def escapeCell (t : Text) : Text :=
  replaceChar '\n' [' '] (replaceChar '|' ['\\', '|'] t)

/-- `| a | b |`. -/
def rowLine (cells : List Text) : Text :=
  "| ".toList ++ joinTexts " | ".toList cells ++ " |".toList

/-- `row.resize(width, String::new())`. -/
def resize (width : Nat) (row : List Text) : List Text :=
  row.take width ++ List.replicate (width - row.length) []

def tableWidth (rows : List (List Text)) : Nat :=
  (rows.map List.length).max?.getD 0

theorem length_le_tableWidth {rows : List (List Text)} {row : List Text} (hrow : row ∈ rows) :
    row.length ≤ tableWidth rows := by
  unfold tableWidth
  cases hmax : (rows.map List.length).max? with
  | none =>
      rw [List.max?_eq_none_iff, List.map_eq_nil_iff] at hmax
      rw [hmax] at hrow
      cases hrow
  | some width =>
      exact (List.max?_eq_some_iff.mp hmax).2 row.length (List.mem_map_of_mem hrow)

/-- The table of `render_block`, from the texts of the origins of each row. -/
def renderTable (grid : List (List (Option Text))) : Option Text :=
  let rows := (grid.map fun row => row.filterMap id).filter (· ≠ [])
  let width := tableWidth rows
  match rows.map (resize width) with
  | [] => none
  | header :: body =>
      if width = 0 then none
      else
        some (rowLine header ++ "\n|".toList ++
          joinTexts ['|'] (List.replicate width "---".toList) ++ "|\n".toList ++
          body.flatMap fun row => rowLine row ++ ['\n'])

/-- A list of `render_block`, from the labels and the parts of its items. -/
def renderList (items : List (Text × List Text)) : Option Text :=
  if items = [] then none
  else
    some (joinTexts ['\n'] (items.flatMap fun (label, inner) =>
      match inner with
      | [] => [label ++ [' ']]
      | first :: rest =>
          (label ++ ' ' :: first) :: rest.flatMap fun extra =>
            (strLines extra).map fun line => "  ".toList ++ line))

/-- A quotation of `render_block`. -/
def renderQuote (parts : List Text) : Option Text :=
  let body := joinTexts "\n\n".toList parts
  if body = [] then none
  else
    some (joinTexts ['\n'] ((strLines body).map fun line =>
      if line = [] then ['>'] else "> ".toList ++ line))

def renderHeading (level : Nat) (content : Text) : Option Text :=
  let text := trim content
  if text = [] then none
  else some (List.replicate (max 1 (min level 6)) '#' ++ ' ' :: text)

def renderParagraph (content : Text) : Option Text :=
  if trim content = [] then none else some (trim content)

/-- `trim_end_matches`. -/
def trimEndFeeds (t : Text) : Text :=
  (t.reverse.dropWhile (· = '\n')).reverse

def renderCode (lang : Option Text) (text : Text) : Text :=
  "\x60\x60\x60".toList ++ lang.getD [] ++ '\n' :: trimEndFeeds text ++ "\n\x60\x60\x60".toList

section Rendering

variable (label : MarkerKind -> Nat -> Text)

/-- The text in front of the item at place `i`; `label` is `MarkerKind::label`. -/
def itemLabel (start : Nat) (marker : MarkerKind) (i : Nat) (markerLabel : Option Text) : Text :=
  if marker = .bullet then ['-']
  else markerLabel.getD (label marker (max (min (start + i) (2 ^ 64 - 1)) 1))

mutual

/-- `render_blocks`. -/
def renderBlocks : List Block -> List Text
  | [] => []
  | block :: rest => (renderBlock block).toList ++ renderBlocks rest

/-- `render_block`. -/
def renderBlock : Block -> Option Text
  | .heading level content => renderHeading level (renderInlines content)
  | .paragraph content => renderParagraph (renderInlines content)
  | .list start marker items => renderList (renderItems start marker 0 items)
  | .table grid => renderTable (renderRows grid)
  | .blockQuote inner => renderQuote (renderBlocks inner)
  | .codeBlock lang text => some (renderCode lang text)
  | .rule => some "---".toList

def renderItems (start : Nat) (marker : MarkerKind) : Nat -> List Item -> List (Text × List Text)
  | _, [] => []
  | i, .mk markerLabel blocks :: rest =>
      (itemLabel label start marker i markerLabel, renderBlocks blocks) ::
        renderItems start marker (i + 1) rest

def renderRows : List (List CellSlot) -> List (List (Option Text))
  | [] => []
  | row :: rest => renderRow row :: renderRows rest

def renderRow : List CellSlot -> List (Option Text)
  | [] => []
  | .origin blocks :: rest =>
      some (escapeCell (joinTexts [' '] (renderBlocks blocks))) :: renderRow rest
  | .covered :: rest => none :: renderRow rest

end

/-- `document_to_gfm`. -/
def documentToGfm (doc : Document) : Text :=
  joinTexts "\n\n".toList
    (renderBlocks label doc.blocks ++ doc.notes.flatMap (renderBlocks label))

end Rendering

end Anydoc
end DocReader
end KnowledgeBrain
