import Fletch.Vm.Object
import Fletch.Vm.Bytecodes
import Fletch.Vm.World
import Fletch.Vm.Process
import Fletch.Vm.State
import Fletch.Vm.Support
import Fletch.Vm.Interpreter
import Fletch.Vm.Ffi
import Fletch.Proofs.Basic
import Fletch.Proofs.Effects
import Fletch.Proofs.Retry
import Fletch.Proofs.Natives
import Fletch.Proofs.Registry
import Fletch.Proofs.Calls
import Fletch.Proofs.Memory
import Fletch.Proofs.Unwinding
import Fletch.Proofs.Coroutines
import Fletch.Proofs.Lookup
import Fletch.Proofs.Objects
import Fletch.Proofs.Heap
import Fletch.Proofs.Surrender
import Fletch.Proofs.Lifecycle
import Fletch.Proofs.References
import Fletch.Proofs.Pointers
import Fletch.Proofs.Immutability
