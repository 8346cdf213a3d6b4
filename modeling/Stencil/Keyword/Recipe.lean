import Stencil.Field.StockSource
import Stencil.Keyword.Basic
import Stencil.Pattern.Text

/-!
# Recipes for keywords

A recipe describes a maker as data, so that keywords can be configured without code.

* `Stencil.Recipe`: the description;
* `Stencil.Recipe.maker`: the maker that it describes.
-/

namespace Stencil

/-- What a keyword makes. -/
inductive Product where
  /-- A fixed value. -/
  | static (value : Json)
  /-- The name of the entry and the directive, with a bar between them. -/
  | echo
  /-- A reference. -/
  | reference (target : String)
  /-- The time. -/
  | timestamp
  /-- An identifier. -/
  | uuid (kind : UuidKind)
  /-- A pattern, read when the keyword is used. -/
  | pattern (text : String)
  /-- A failure: the directive is not resolved. -/
  | unresolved (reason : String)
  /-- A failure: the keyword is not configured properly. -/
  | misconfigured (reason : String)
  /-- A stock source of values. -/
  | custom (source : StockSource)

/-- The content of a product, for the name of an entry and its directive. -/
def Product.content (product : Product) (name directive : String) :
    Except TemplateFault (Content StockSource) :=
  match product with
  | .static value => .ok (.static value)
  | .echo => .ok (.static (.string (name ++ "|" ++ directive)))
  | .reference target => .ok (.reference target)
  | .timestamp => .ok .timestamp
  | .uuid kind => .ok (.uuid kind)
  | .pattern text => ((Pattern.ofText text).mapError (.invalidPattern text)).map .pattern
  | .unresolved reason => .error (.unresolved name directive (.stated reason))
  | .misconfigured reason => .error (.configuration reason)
  | .custom source => .ok (.custom source)

/-- A description of a maker. -/
structure Recipe where
  /-- The name of the field that is made, if not that of the entry. -/
  rename : Option String
  /-- What is made. -/
  product : Product

/-- The maker that a recipe describes. -/
def Recipe.maker (recipe : Recipe) : Maker StockSource := fun name directive =>
  (recipe.product.content name directive).map fun content => ⟨recipe.rename.getD name, content⟩

end Stencil
