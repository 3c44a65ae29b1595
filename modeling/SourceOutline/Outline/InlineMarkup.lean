import SourceOutline.Text.Blank

/-! Inline markup: lines that open or close an element of running content, such as `<span>`.
Structural elements (`<body>`, `<nav>`) and capitalised components (`<Layout>`) are not inline. -/
namespace SourceOutline.InlineMarkup

def elements : List String :=
  ["a", "abbr", "b", "blockquote", "br", "button", "canvas", "caption", "cite", "code", "dd", "del",
   "details", "dfn", "div", "dl", "dt", "em", "fieldset", "figcaption", "figure", "form", "h1",
   "h2", "h3", "h4", "h5", "h6", "hr", "i", "iframe", "img", "input", "ins", "kbd", "label",
   "legend", "li", "mark", "ol", "optgroup", "option", "p", "picture", "pre", "q", "s", "samp",
   "select", "small", "source", "span", "strong", "sub", "summary", "sup", "svg", "table", "tbody",
   "td", "textarea", "tfoot", "th", "thead", "time", "tr", "u", "ul", "var", "video"]

def isTagChar (c : Char) : Bool := c.isAlphanum || c == '-'

/-- A tag name starts with a letter and goes on with letters, digits and hyphens, ASCII only. -/
def tagName? : List Char → Option (List Char)
  | c :: cs => if c.isAlpha then some (c :: cs.takeWhile isTagChar) else none
  | [] => none

def openingTag? : List Char → Option (List Char)
  | '<' :: '/' :: cs => tagName? cs
  | '<' :: cs => tagName? cs
  | _ => none

def holds (line : String) : Bool :=
  match openingTag? (Text.trimChars line.toList) with
  | some name => elements.contains (String.ofList name)
  | none => false

end SourceOutline.InlineMarkup
