/-!
# Page elements

A page as a tree of elements, and its text.

## Main definitions

* `Html`, `Html.render`: elements and their text
-/

namespace ParseReplay

/-- A part of a page. Attributes are written in their order. -/
inductive Html where
  | text (s : String)
  | element (tag : String) (attributes : List (String × String)) (children : List Html)
  /-- An element without an end. -/
  | void (tag : String) (attributes : List (String × String))
  /-- The place of an optional part that is absent. -/
  | absent

namespace Html

/-- An attribute. The declarations of a style are closed by one more semicolon. -/
def renderAttribute : String × String → String
  | (name, value) =>
    " " ++ name ++ "=\"" ++ value ++ (if name = "style" then ";" else "") ++ "\""

/-- The start of an element. -/
def openTag (tag : String) (attributes : List (String × String)) : String :=
  "<" ++ tag ++ String.join (attributes.map renderAttribute) ++ ">"

mutual

/-- The text of a part. -/
def render : Html → String
  | text s => s
  | element tag attributes children =>
    openTag tag attributes ++ renderAll children ++ "</" ++ tag ++ ">"
  | void tag attributes => openTag tag attributes
  | absent => "<!>"

/-- The text of several parts. -/
def renderAll : List Html → String
  | [] => ""
  | h :: hs => h.render ++ renderAll hs

end

end Html

end ParseReplay
