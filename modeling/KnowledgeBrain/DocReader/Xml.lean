import KnowledgeBrain.Chunker.Text
import KnowledgeBrain.Foundation.Searching

/-!
# Elements

A Word document is a package of element trees.  A tree is read in document
order, as a list of its elements with the tags of what encloses each.
-/

namespace KnowledgeBrain
namespace DocReader

open Chunker (Text)

inductive Namespace where
  | word
  | relationships
  | picture
  | other (uri : String)
  | none
deriving DecidableEq

structure Tag where
  space : Namespace
  name : String
deriving DecidableEq

/-- `qn("w:…")`. -/
def w (name : String) : Tag :=
  ⟨.word, name⟩

/-- An element; its attributes have distinct names. -/
inductive Element where
  | node (tag : Tag) (attributes : List (Tag × Text)) (text : Text) (children : List Element)

namespace Element

def tag : Element -> Tag
  | .node tag _ _ _ => tag

def attributes : Element -> List (Tag × Text)
  | .node _ attributes _ _ => attributes

/-- `node.text or ""`. -/
def text : Element -> Text
  | .node _ _ text _ => text

/-- `node.get(name)`. -/
def get (e : Element) (name : Tag) : Option Text :=
  e.attributes.lookup name

mutual

/-- The elements in document order, each with the tags above it. -/
def iterWithin (above : List Tag) : Element -> List (Element × List Tag)
  | .node tag attributes text children =>
      (.node tag attributes text children, above) :: iterAllWithin (tag :: above) children

def iterAllWithin (above : List Tag) : List Element -> List (Element × List Tag)
  | [] => []
  | e :: rest => e.iterWithin above ++ iterAllWithin above rest

end

/-- `node.iter()`. -/
def iter (e : Element) : List Element :=
  (e.iterWithin []).map Prod.fst

end Element

/-!
# Texts
-/

/-- The tables of Unicode that the runtime has. -/
structure Runtime where
  upper : Text -> Text

end DocReader
end KnowledgeBrain
