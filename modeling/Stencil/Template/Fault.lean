import Stencil.Json.Reader
import Stencil.Pattern.Fault

/-!
# What can be wrong with a template

The library refuses a template for faults of its own, and keywords of callers can fail with the same
kinds of faults. A caller says in words of its own what is wrong, so wherever the library itself
would know the cause there is also room for such words. One kind of fault is left to callers, that
something could not be read or written.

* `Stencil.UnresolvedReason`: why a directive cannot be resolved;
* `Stencil.MalformedCause`: why a text cannot be read as a template;
* `Stencil.TemplateFault`: why a template is refused;
* `Stencil.TemplateFault.message?`: the wording.
-/

namespace Stencil

/-- Why a directive cannot be resolved. -/
inductive UnresolvedReason where
  /-- It is neither a keyword nor a reference nor a pattern. -/
  | unknownKeyword
  /-- It refers to a name that the template does not have. -/
  | missingField (target : String)
  /-- It refers to a field that refers to another itself. -/
  | chainedReference (target : String)
  /-- Its keyword made a field of another name than that of the entry. -/
  | misnamedField (name : String)
  /-- What a keyword of a caller says. -/
  | stated (reason : String)
deriving DecidableEq, Repr

/-- The wording of an `UnresolvedReason`. -/
def UnresolvedReason.message : UnresolvedReason → String
  | unknownKeyword => "unknown keyword"
  | missingField target => s!"no field named '{target}'"
  | chainedReference target => s!"'{target}' is itself a reference"
  | misnamedField name => s!"keyword built a field named '{name}'"
  | stated reason => reason

/-- Why a text cannot be read as a template. -/
inductive MalformedCause where
  /-- What the reader has found. -/
  | found (fault : ReadFault)
  /-- What a keyword of a caller says. -/
  | stated (reason : String)
deriving DecidableEq, Repr

/-- Why a template is refused. -/
inductive TemplateFault where
  /-- It cannot be read as an object. -/
  | malformed (cause : MalformedCause)
  /-- A directive with a bracket is not a pattern. -/
  | invalidPattern (pattern : String) (cause : PatternFault)
  /-- A directive cannot be resolved. -/
  | unresolved (field directive : String) (reason : UnresolvedReason)
  /-- A keyword is not configured properly, as its caller says. -/
  | configuration (reason : String)
  /-- Something could not be read or written, as the caller of a keyword says: the kind of failure,
  by its name, and what is said about it. -/
  | io (kind reason : String)
deriving DecidableEq, Repr

/-- The wording of a `TemplateFault`. What the reader has found has none here. -/
def TemplateFault.message? : TemplateFault → Option String
  | malformed (.found _) => none
  | malformed (.stated reason) => s!"malformed template: {reason}"
  | invalidPattern pattern cause => s!"invalid pattern: {pattern}, reason: {cause.message}"
  | unresolved field directive reason =>
    s!"unresolved directive '{directive}' in field '{field}': {reason.message}"
  | configuration reason => s!"invalid configuration: {reason}"
  | io _ reason => s!"io error: {reason}"

end Stencil
