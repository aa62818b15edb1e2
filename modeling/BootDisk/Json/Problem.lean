set_option autoImplicit false

/-! # What can be wrong with a JSON text -/
namespace BootDisk.Json

/-- The first problem met from left to right decides: the text ends too early, it is not JSON, or
it is JSON of another shape than the one asked for. -/
inductive Problem where
  | truncated
  | malformed
  | mismatched
deriving DecidableEq, Repr

def Problem.message : Problem → String
  | truncated => "the text ends too early"
  | malformed => "the text is not JSON"
  | mismatched => "a value has the wrong shape"

end BootDisk.Json
