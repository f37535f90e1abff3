import Exosuit.Lib.JsonText

/-!
# The rich text document

Blocks and inlines. Strings are lists of characters: a lone surrogate, which a string of the source
may hold, is none.
-/

namespace Exosuit.Rtd

open Lib

abbrev Str := List Char

inductive Inline
  | text (value : Str)
  | strong (children : List Inline)
  | emphasis (children : List Inline)
  | strikethrough (children : List Inline)
  | codeSpan (value : Str)
  | mathInline (value : Str)
  | link (href : Str) (title : Option Str) (children : List Inline)
  | image (src alt : Str) (title : Option Str)
  | icon (name : Str)
  | command (id : Str) (args : Option (List JsonText.Value)) (children : List Inline)
  | citation (value : Str)
  | comment (value : Str)

inductive AlertVariant
  | note
  | tip
  | important
  | warning
  | caution
deriving DecidableEq

inductive CalloutVariant
  | thinking
  | plan
  | scratchpad
deriving DecidableEq

inductive DiagramTool
  | mermaid
  | graphviz
deriving DecidableEq

inductive Alignment
  | left
  | center
  | right
deriving DecidableEq

abbrev TableCell := List Inline

abbrev TableRow := List TableCell

mutual

/-- The level of a heading is one more than `level`. -/
inductive Block
  | paragraph (children : List Inline)
  | heading (level : Fin 6) (children : List Inline)
  | codeBlock (language filename : Option Str) (value : Str)
  | diagram (tool : DiagramTool) (value : Str)
  | mathBlock (value : Str)
  | list (ordered : Bool) (items : List ListItem)
  | blockquote (children : List Block)
  | alert (variant : AlertVariant) (children : List Block)
  | callout (variant : CalloutVariant) (children : List Block)
  | thematicBreak
  | container (variant : Str) (children : List Block)
  | comment (value : Str)
  | xmlBlock (tagName : Str) (attributes : List (Str × Str)) (content : Str)
  | table (header : TableRow) (rows : List TableRow) (alignments : List (Option Alignment))

inductive ListItem
  | mk (checked : Option Bool) (children : List Block)

end

end Exosuit.Rtd
