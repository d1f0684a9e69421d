import ParseReplay.Page.Address
import ParseReplay.Page.Html

/-!
# The pages

The document around a page, the page at the root and the page at every other path.

## Main definitions

* `Page.home`, `Page.notFound`: the two pages
* `Page.document`: the document at a path
-/

namespace ParseReplay.Page

/-- An optional message as a paragraph of a class. -/
def message (cls : String) : Option String → Html
  | none => .absent
  | some text => .element "p" [("class", cls)] [.text text]

/-- The two canvases, and the fault of the session if there is one. -/
def canvases (fault : Option String) : List Html :=
  [.element "div" [("class", "parse-visualizer"), ("style", "display: flex;")]
    [.element "canvas" [("class", "parse-tree-canvas"), ("style", "display: block;")] [],
      .element "canvas" [("class", "automaton-canvas"), ("style", "display: block;")] []],
    message "trace-fault" fault]

/-- A labelled text field of a number of rows. -/
def field (label rows : String) : Html :=
  .element "label" []
    [.text label, .element "textarea" [("rows", rows), ("cols", "60")] []]

/-- The page with the canvases and the form, its objection shown if there is one. -/
def home (fault objection : Option String) : Html :=
  .element "div" [("class", "visualizer-page")] <|
    [.element "h1" [] [.text "Shift-Reduce Parse"]] ++ canvases fault ++
    [.element "div" [("class", "trace-inputs")]
      [field "Trace" "14", field "Automaton" "3", .element "button" [] [.text "Redraw"],
        message "input-error" objection]]

/-- The page of a path that leads nowhere. -/
def notFound : Html :=
  .element "h1" []
    [.text "Uh oh!", .void "br" [], .text "We couldn't find that page!"]

/-- The body of the document at an address. -/
def body (url : String) : Html :=
  if Address.isRoot url then home none none else notFound

/-- The document at an address. -/
def document (url : String) : Html :=
  .element "html" [("lang", "en"), ("dir", "ltr"), ("data-theme", "light")]
    [.element "head" []
      [.void "meta" [("charset", "UTF-8")],
        .void "meta"
          [("name", "viewport"), ("content", "width=device-width, initial-scale=1.0")],
        .element "title" [] [.text "Shift-Reduce Visualizer"]],
      .element "body" [] [body url]]

end ParseReplay.Page
