import NaviScheme.Lib.Except
import NaviScheme.Lib.RedBlack
import NaviScheme.Lib.Rebalance
import NaviScheme.Lib.Traverse
import NaviScheme.Lib.Prog
import NaviScheme.Lib.Utf8
import NaviScheme.Lib.Renaming
import NaviScheme.Lib.Moves
import NaviScheme.Lib.CopyForward
import NaviScheme.RbTree.Memory
import NaviScheme.RbTree.Represent
import NaviScheme.RbTree.Insert
import NaviScheme.RbTree.Remove
import NaviScheme.RbTree.Swap
import NaviScheme.RbTree.Run
import NaviScheme.RbTree.Erase
import NaviScheme.Slab.Cache
import NaviScheme.Slab.Invariant
import NaviScheme.Heap.Object
import NaviScheme.Heap.Collect
import NaviScheme.Heap.Mark
import NaviScheme.Heap.Sweep
import NaviScheme.Heap.Refs
import NaviScheme.Eval.World
import NaviScheme.Eval.Leaf
import NaviScheme.Eval.Function
import NaviScheme.Eval.Core
import NaviScheme.Eval.Binding
import NaviScheme.Eval.Library
import NaviScheme.Eval.Control
import NaviScheme.Eval.Run
import NaviScheme.Import.Meaning
import NaviScheme.Import.Scope
import NaviScheme.Import.Modifiers
import NaviScheme.Import.Run
import NaviScheme.Eval.Inspect
import NaviScheme.Eval.Promise
import NaviScheme.Eval.ShortCircuit
import NaviScheme.Lib.Trace
import NaviScheme.Import.Attempt
import NaviScheme.Reader.Datum
import NaviScheme.Reader.Port
import NaviScheme.Reader.Lookahead
import NaviScheme.Reader.Read
import NaviScheme.Reader.Display
import NaviScheme.Reader.Scan
import NaviScheme.Reader.RoundTrip
import NaviScheme.Reader.Literal
import NaviScheme.Reader.StringLiteral
import NaviScheme.Lib.Coding
import NaviScheme.Strings.Unicode
import NaviScheme.Strings.Memory
import NaviScheme.Strings.Operations
import NaviScheme.Strings.Splice
import NaviScheme.Reader.StringObject
import NaviScheme.Reader.Codec
import NaviScheme.Reader.SymbolName
import NaviScheme.Reader.Folding
import NaviScheme.Reader.Numeral
import NaviScheme.Reader.Token
import NaviScheme.Lib.Contract
import NaviScheme.Frame.Objects
import NaviScheme.Frame.Leaf
import NaviScheme.Frame.Core
import NaviScheme.Frame.Binding
import NaviScheme.Frame.Library
import NaviScheme.Frame.Control
import NaviScheme.Frame.Switch
import NaviScheme.Frame.Run
import NaviScheme.Frame.Operands
import NaviScheme.Eval.Disabled
import NaviScheme.Eval.Reads
import NaviScheme.Eval.Handover
import NaviScheme.Eval.Apply
import NaviScheme.Eval.Expansion
import NaviScheme.Eval.Formals
import NaviScheme.Eval.ErrorObject
import NaviScheme.Lib.Fuel
import NaviScheme.Reader.Halting
import NaviScheme.Reader.Control
import NaviScheme.Reader.Termination
import NaviScheme.Reader.Program
import NaviScheme.Strings.Texts
import NaviScheme.Strings.Modify
import NaviScheme.Strings.Run
import NaviScheme.Strings.OutputPort
import NaviScheme.Strings.Compare
import NaviScheme.Strings.Access
import NaviScheme.Strings.Returns
import NaviScheme.Strings.Convert
import NaviScheme.Strings.Replace
import NaviScheme.Strings.Edit
import NaviScheme.Sequences.Copy
import NaviScheme.Sequences.Ranges
import NaviScheme.Sequences.Index
import NaviScheme.Ports.Close
import NaviScheme.Reader.Printing
import NaviScheme.Reader.Structure
import NaviScheme.Reader.Continuation
import NaviScheme.Reader.Comment
import NaviScheme.Eval.Callee
import NaviScheme.Arithmetic.Word
import NaviScheme.Arithmetic.Operations
import NaviScheme.Arithmetic.Numerals
import NaviScheme.Sequences.Allocate
import NaviScheme.Import.Path
import NaviScheme.Lib.Links
import NaviScheme.Environment.Bindings
import NaviScheme.Heap.Symbols
import NaviScheme.Arithmetic.Tags
import NaviScheme.Sequences.Equal
import NaviScheme.Reader.Guards
import NaviScheme.Sequences.Lists
import NaviScheme.Heap.Stats
import NaviScheme.Lib.Uniform
import NaviScheme.Uniform.Objects
import NaviScheme.Uniform.Leaf
import NaviScheme.Uniform.Core
import NaviScheme.Uniform.Binding
import NaviScheme.Uniform.Library
import NaviScheme.Uniform.Control
import NaviScheme.Uniform.World
import NaviScheme.Uniform.Run
import NaviScheme.Uniform.Readdress
import NaviScheme.Uniform.Lists
import NaviScheme.Sequences.Mapping
import NaviScheme.Frame.Garbage
import NaviScheme.RbTree.Iterate
import NaviScheme.RbTree.Links
import NaviScheme.RbTree.Extent
import NaviScheme.RbTree.Pure
import NaviScheme.Slab.Linked
import NaviScheme.Slab.Refines
import NaviScheme.Lib.Lisp
import NaviScheme.Language.Values
import NaviScheme.Language.Frames
import NaviScheme.Language.Bounces
import NaviScheme.Language.Forms
import NaviScheme.Language.Binding
import NaviScheme.Language.Clauses
import NaviScheme.Language.Operands
import NaviScheme.Language.Calls
import NaviScheme.Language.Run
import NaviScheme.Eval.Builtins
import NaviScheme.Frame.Builtins
import NaviScheme.Language.Builtins
import NaviScheme.Language.Core
