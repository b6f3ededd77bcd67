import Fletch.Vm.Object

/-!
# Bytecodes

The opcodes `Engine::Interpret` has a label for, their lengths, and how operands are
read from the bytecode stream.

`src/shared/bytecodes.h` is not among the sources, so its table (`BYTECODES_DO`) is
modelled from the spec: an opcode is one tag byte followed by its operands, and the
length of each opcode is one plus the operand bytes the interpreter reads for it
(`ReadByte(1)` is one byte, `ReadInt32(1)` four, `SubroutineCall` two 32-bit operands).
Every invoke opcode is five bytes, as the spec's design notes say `EnterNoSuchMethod`
assumes. Tag bytes number the opcodes in the order of their labels in
`interpreter.cc`; `INVOKE_BUILTIN(kind)` gives three opcodes per builtin kind. 32-bit
operands are read in host byte order, taken to be little-endian.
-/

namespace Fletch

/-- The builtin kinds of `INVOKE_BUILTIN`. -/
inductive Builtin where
  | eq | lt | le | gt | ge
  | add | sub | mod | mul | truncDiv
  | bitNot | bitAnd | bitOr | bitXor | bitShr | bitShl
  deriving DecidableEq, Repr

/-- The opcodes of `Engine::Interpret`. -/
inductive Opcode where
  | loadLocal0 | loadLocal1 | loadLocal2 | loadLocal | loadBoxed | loadStatic
  | loadStaticInit | loadField | loadConst | loadConstUnfold
  | storeLocal | storeBoxed | storeStatic | storeField
  | loadLiteralNull | loadLiteralTrue | loadLiteralFalse | loadLiteral0 | loadLiteral1
  | loadLiteral | loadLiteralWide
  | invokeMethod | invokeMethodFast | invokeMethodVtable
  | invokeStatic | invokeFactory | invokeStaticUnfold | invokeFactoryUnfold
  | invokeNative
  | invoke (kind : Builtin) | invokeFast (kind : Builtin) | invokeVtable (kind : Builtin)
  | invokeNativeYield | invokeTest | invokeTestFast | invokeTestVtable
  | pop | «return»
  | branchLong | branchIfTrueLong | branchIfFalseLong
  | branchBack | branchBackIfTrue | branchBackIfFalse
  | branchBackLong | branchBackIfTrueLong | branchBackIfFalseLong
  | popAndBranchLong | popAndBranchBackLong
  | allocate | allocateUnfold | allocateImmutable | allocateImmutableUnfold | allocateBoxed
  | negate | stackOverflowCheck | throw | processYield | coroutineChange
  | identical | identicalNonNumeric | enterNoSuchMethod | exitNoSuchMethod
  | subroutineCall | subroutineReturn | frameSize | methodEnd
  deriving Repr

/-- The position of a builtin kind in `INVOKE_BUILTIN`'s order. -/
def Builtin.index : Builtin → Nat
  | .eq => 0
  | .lt => 1
  | .le => 2
  | .gt => 3
  | .ge => 4
  | .add => 5
  | .sub => 6
  | .mod => 7
  | .mul => 8
  | .truncDiv => 9
  | .bitNot => 10
  | .bitAnd => 11
  | .bitOr => 12
  | .bitXor => 13
  | .bitShr => 14
  | .bitShl => 15

namespace Opcode

/-- `k<Opcode>Length`. `bytecodes.h` is not under `src/`: one tag byte and the operand
bytes `interpreter.cc` reads, as the spec describes the encoding. -/
def length : Opcode → Nat
  | loadLocal0 | loadLocal1 | loadLocal2 => 1
  | loadLocal | loadBoxed | loadField | storeLocal | storeBoxed | storeField => 2
  | loadStatic | loadStaticInit | loadConst | loadConstUnfold | storeStatic => 5
  | loadLiteralNull | loadLiteralTrue | loadLiteralFalse | loadLiteral0 | loadLiteral1 => 1
  | loadLiteral => 2
  | loadLiteralWide => 5
  | invokeMethod | invokeMethodFast | invokeMethodVtable => 5
  | invokeStatic | invokeFactory | invokeStaticUnfold | invokeFactoryUnfold => 5
  | invokeNative | invokeNativeYield => 3
  | invoke _ | invokeFast _ | invokeVtable _ => 5
  | invokeTest | invokeTestFast | invokeTestVtable => 5
  | pop => 1
  | «return» => 3
  | branchLong | branchIfTrueLong | branchIfFalseLong => 5
  | branchBack | branchBackIfTrue | branchBackIfFalse => 2
  | branchBackLong | branchBackIfTrueLong | branchBackIfFalseLong => 5
  | popAndBranchLong | popAndBranchBackLong => 6
  | allocate | allocateUnfold | allocateImmutable | allocateImmutableUnfold => 5
  | allocateBoxed | negate => 1
  | stackOverflowCheck => 5
  | throw | processYield | coroutineChange | identical | identicalNonNumeric => 1
  | enterNoSuchMethod | exitNoSuchMethod => 1
  | subroutineCall => 9
  | subroutineReturn => 1
  | frameSize => 2
  | methodEnd => 5

/-- The three opcodes `INVOKE_BUILTIN(kind)` defines. -/
def builtins (kind : Builtin) : List Opcode := [invoke kind, invokeFast kind, invokeVtable kind]

/-- The opcodes in tag order: the order of their labels in `interpreter.cc`, standing for
the table of `bytecodes.h`, which is not under `src/`. -/
def table : List Opcode :=
  [loadLocal0, loadLocal1, loadLocal2, loadLocal, loadBoxed, loadStatic, loadStaticInit,
    loadField, loadConst, loadConstUnfold, storeLocal, storeBoxed, storeStatic, storeField,
    loadLiteralNull, loadLiteralTrue, loadLiteralFalse, loadLiteral0, loadLiteral1,
    loadLiteral, loadLiteralWide, invokeMethod, invokeMethodFast, invokeMethodVtable,
    invokeStatic, invokeFactory, invokeStaticUnfold, invokeFactoryUnfold, invokeNative] ++
  ([Builtin.eq, .lt, .le, .gt, .ge, .add, .sub, .mod, .mul, .truncDiv,
    .bitNot, .bitAnd, .bitOr, .bitXor, .bitShr, .bitShl].flatMap builtins) ++
  [invokeNativeYield, invokeTest, invokeTestFast, invokeTestVtable, pop, «return»,
    branchLong, branchIfTrueLong, branchIfFalseLong, branchBack, branchBackIfTrue,
    branchBackIfFalse, branchBackLong, branchBackIfTrueLong, branchBackIfFalseLong,
    popAndBranchLong, popAndBranchBackLong, allocate, allocateUnfold, allocateImmutable,
    allocateImmutableUnfold, allocateBoxed, negate, stackOverflowCheck, throw, processYield,
    coroutineChange, identical, identicalNonNumeric, enterNoSuchMethod, exitNoSuchMethod,
    subroutineCall, subroutineReturn, frameSize, methodEnd]

/-- The opcode a tag byte names (`static_cast<Opcode>(*bcp_)`); `none` for a byte at or
past `Bytecode::kNumBytecodes`. -/
def ofByte (b : UInt8) : Option Opcode := table[b.toNat]?

/-- The tag byte of an opcode, as a number: its position in `table`. -/
def toNat : Opcode → Nat
  | loadLocal0 => 0
  | loadLocal1 => 1
  | loadLocal2 => 2
  | loadLocal => 3
  | loadBoxed => 4
  | loadStatic => 5
  | loadStaticInit => 6
  | loadField => 7
  | loadConst => 8
  | loadConstUnfold => 9
  | storeLocal => 10
  | storeBoxed => 11
  | storeStatic => 12
  | storeField => 13
  | loadLiteralNull => 14
  | loadLiteralTrue => 15
  | loadLiteralFalse => 16
  | loadLiteral0 => 17
  | loadLiteral1 => 18
  | loadLiteral => 19
  | loadLiteralWide => 20
  | invokeMethod => 21
  | invokeMethodFast => 22
  | invokeMethodVtable => 23
  | invokeStatic => 24
  | invokeFactory => 25
  | invokeStaticUnfold => 26
  | invokeFactoryUnfold => 27
  | invokeNative => 28
  | invoke k => 29 + 3 * k.index
  | invokeFast k => 30 + 3 * k.index
  | invokeVtable k => 31 + 3 * k.index
  | invokeNativeYield => 77
  | invokeTest => 78
  | invokeTestFast => 79
  | invokeTestVtable => 80
  | pop => 81
  | «return» => 82
  | branchLong => 83
  | branchIfTrueLong => 84
  | branchIfFalseLong => 85
  | branchBack => 86
  | branchBackIfTrue => 87
  | branchBackIfFalse => 88
  | branchBackLong => 89
  | branchBackIfTrueLong => 90
  | branchBackIfFalseLong => 91
  | popAndBranchLong => 92
  | popAndBranchBackLong => 93
  | allocate => 94
  | allocateUnfold => 95
  | allocateImmutable => 96
  | allocateImmutableUnfold => 97
  | allocateBoxed => 98
  | negate => 99
  | stackOverflowCheck => 100
  | throw => 101
  | processYield => 102
  | coroutineChange => 103
  | identical => 104
  | identicalNonNumeric => 105
  | enterNoSuchMethod => 106
  | exitNoSuchMethod => 107
  | subroutineCall => 108
  | subroutineReturn => 109
  | frameSize => 110
  | methodEnd => 111

/-- The tag byte of an opcode. -/
def toByte (op : Opcode) : UInt8 := op.toNat.toUInt8

/-- `Bytecode::IsInvokeNormal`: `InvokeMethod` and the builtin invokes that dispatch to it. -/
def isInvokeNormal : Opcode → Bool
  | invokeMethod | invoke _ => true
  | _ => false

/-- `Bytecode::IsInvokeFast`. -/
def isInvokeFast : Opcode → Bool
  | invokeMethodFast | invokeFast _ => true
  | _ => false

/-- `Bytecode::IsInvokeVtable`. -/
def isInvokeVtable : Opcode → Bool
  | invokeMethodVtable | invokeVtable _ => true
  | _ => false

end Opcode

/-- `Utils::ReadInt32`: four bytes, least significant first, as a signed 32-bit integer. -/
def Utils.readInt32 (code : Nat → UInt8) (a : Nat) : Int :=
  let u : Nat := (code a).toNat + 2 ^ 8 * (code (a + 1)).toNat +
    2 ^ 16 * (code (a + 2)).toNat + 2 ^ 24 * (code (a + 3)).toNat
  if u < 2 ^ 31 then u else (u : Int) - 2 ^ 32

end Fletch
