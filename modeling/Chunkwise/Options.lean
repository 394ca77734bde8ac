import Chunkwise.Value

namespace Chunkwise

structure Options where
  maxLines : Option Int := none
  minLines : Option Int := none
  overlap : Option Int := none
  preserveContext : Option Bool := none
  byHeadings : Option Bool := none
  includeCodeBlocks : Option Bool := none
  deriving DecidableEq

def Options.fields (o : Options) : Fields :=
  [("max_lines", o.maxLines.map .int), ("min_lines", o.minLines.map .int),
    ("overlap", o.overlap.map .int), ("preserve_context", o.preserveContext.map .bool),
    ("by_headings", o.byHeadings.map .bool),
    ("include_code_blocks", o.includeCodeBlocks.map .bool)].filterMap
    fun (key, value) => value.map (key, ·)

end Chunkwise
