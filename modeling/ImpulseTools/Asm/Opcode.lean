import ImpulseTools.Python.Number
import Mathlib.Data.Finset.Basic
import Mathlib.Data.List.Pairwise

/-! # Opcodes

The mnemonics of the opcode table and their aliases, the codes of the table, and the
search for a mnemonic by name.
-/

namespace ImpulseTools

/-- The names `parse_impas_file` knows: the keys of `OPCODES`, then those of `OPCODE_ALIASES`. -/
inductive Op where
  | halt | nop | initInputNode | initInputSet | loadConstInt | mapKeysToDense | loadConstFloat
  | loadConstStrPrefix | loadInlineArray | initMockGraph | loadInlineSet | initMockNodeAttr
  | csrWalk2hop | csrWalkState | csrWalk | csrWalkFiltered | csrDegree | csrWalkPredicate
  | nodeFilter | nodeFilterStrPrefix | csrWalkReduceSum | csrWalkReduce | cscWalk | hasCsr
  | hasCsc | hasCoo | hasKeyCatalog | adaptiveWalk | createScratchIndex | dropScratchIndex
  | vecCmpEq | vecCmpGt | vecCmpLt | vecCmpBetween | maskAnd | maskOr | maskNot | vecBlend
  | assertFinite | vecMathUnary | vecMathBinary | vecMathTernary | setUnion | setIntersect
  | setDifference | setCardinality | vectorMulAttr | vectorReduceSum | vectorDiv | vectorStrConcat
  | floatVectorScale | l1NormDiff | projectState | coalesce | extractValidity | vectorTimeValidAt
  | ccAfforest | mxv | vxm | ewiseAdd | ewiseMult | reduce | ccHookCompress | tcSweepBatch
  | brandesForward | brandesBackward | deltaStepRelax | readEdgeWeight | jmp | jz | jnz | loopDecr
  | stableCheck | call | ret | enterFrame | leaveFrame | throw | assert | trap | sampleNeighbors
  | randomWalk | scatterGather | rebacCheck | roaringBitmapAnd | islandDetect | sparseMatvec
  | louvainModularity | kcoreDecomposition | motifMatch3 | graphIsomorphism | roaringBitmapOr
  | roaringBitmapAndNot | mov | clearReg | loadIndirect | allocScratch | assertScratchBytes
  | setMaxDop | loadColumnVector | gatherNodeAttr | gatherEdgeAttr | brinZoneSkip
  | csrWalkDirectStore | csrWalkDenseStream | cooWalk | cscWalkDirectStore | fixpointKleeneStar
  | swapReg | frontierDiff | cooWalkFiltered | cooWalkReduce | cooWalkDirectStore | denseWalk
  | denseWalkBitmatrix | collectBitset | collectArray | mapDenseToKeys | collectValueMap
  | denseWalkReduce | denseWalkDirectStore | cooWalkStream | streamFuncBegin | streamFuncEnd
  | streamLoadSrc | streamLoadEdge | streamMathAdd | streamMathDiv | streamFilter | streamReduce
  | csrWalkStream | cscWalkStream | streamLoadTgt | streamMathSub | streamMathMul | streamMathMod
  | streamMathUnary | streamCmpEq | streamCmpNeq | streamCmpGt | streamCmpLt | streamLogicAnd
  | streamLogicOr | streamLogicNot | streamSelect | streamReduceArgmin | streamReduceArgmax
  | streamLoadSrcId | streamLoadTgtId | streamLoadEdgeId | streamLoadConst | streamYield
  | streamScatterReduce | laneInitSeeds | laneInitGroups | laneSetEdgeMask | laneCsrWalk
  | laneCscWalk | lanePruneMask | laneFilterQuorum | laneReduceAnd | laneReduceAttr | laneSetCover
  | vectorAnnSearch | vectorRerankDot | loadInlineIntArray | loadInlineNodeArray
  | loadInlineSetDense | loadInlineSetRoaring | initMockEdgeAttr
  deriving DecidableEq, Repr

namespace Op

def opcodes : List Op :=
  [.halt, .nop, .initInputNode, .initInputSet, .loadConstInt, .mapKeysToDense, .loadConstFloat,
    .loadConstStrPrefix, .loadInlineArray, .initMockGraph, .loadInlineSet, .initMockNodeAttr,
    .csrWalk2hop, .csrWalkState, .csrWalk, .csrWalkFiltered, .csrDegree, .csrWalkPredicate,
    .nodeFilter, .nodeFilterStrPrefix, .csrWalkReduceSum, .csrWalkReduce, .cscWalk, .hasCsr,
    .hasCsc, .hasCoo, .hasKeyCatalog, .adaptiveWalk, .createScratchIndex, .dropScratchIndex,
    .vecCmpEq, .vecCmpGt, .vecCmpLt, .vecCmpBetween, .maskAnd, .maskOr, .maskNot, .vecBlend,
    .assertFinite, .vecMathUnary, .vecMathBinary, .vecMathTernary, .setUnion, .setIntersect,
    .setDifference, .setCardinality, .vectorMulAttr, .vectorReduceSum, .vectorDiv,
    .vectorStrConcat, .floatVectorScale, .l1NormDiff, .projectState, .coalesce, .extractValidity,
    .vectorTimeValidAt, .ccAfforest, .mxv, .vxm, .ewiseAdd, .ewiseMult, .reduce, .ccHookCompress,
    .tcSweepBatch, .brandesForward, .brandesBackward, .deltaStepRelax, .readEdgeWeight, .jmp, .jz,
    .jnz, .loopDecr, .stableCheck, .call, .ret, .enterFrame, .leaveFrame, .throw, .assert, .trap,
    .sampleNeighbors, .randomWalk, .scatterGather, .rebacCheck, .roaringBitmapAnd, .islandDetect,
    .sparseMatvec, .louvainModularity, .kcoreDecomposition, .motifMatch3, .graphIsomorphism,
    .roaringBitmapOr, .roaringBitmapAndNot, .mov, .clearReg, .loadIndirect, .allocScratch,
    .assertScratchBytes, .setMaxDop, .loadColumnVector, .gatherNodeAttr, .gatherEdgeAttr,
    .brinZoneSkip, .csrWalkDirectStore, .csrWalkDenseStream, .cooWalk, .cscWalkDirectStore,
    .fixpointKleeneStar, .swapReg, .frontierDiff, .cooWalkFiltered, .cooWalkReduce,
    .cooWalkDirectStore, .denseWalk, .denseWalkBitmatrix, .collectBitset, .collectArray,
    .mapDenseToKeys, .collectValueMap, .denseWalkReduce, .denseWalkDirectStore, .cooWalkStream,
    .streamFuncBegin, .streamFuncEnd, .streamLoadSrc, .streamLoadEdge, .streamMathAdd,
    .streamMathDiv, .streamFilter, .streamReduce, .csrWalkStream, .cscWalkStream, .streamLoadTgt,
    .streamMathSub, .streamMathMul, .streamMathMod, .streamMathUnary, .streamCmpEq, .streamCmpNeq,
    .streamCmpGt, .streamCmpLt, .streamLogicAnd, .streamLogicOr, .streamLogicNot, .streamSelect,
    .streamReduceArgmin, .streamReduceArgmax, .streamLoadSrcId, .streamLoadTgtId,
    .streamLoadEdgeId, .streamLoadConst, .streamYield, .streamScatterReduce, .laneInitSeeds,
    .laneInitGroups, .laneSetEdgeMask, .laneCsrWalk, .laneCscWalk, .lanePruneMask,
    .laneFilterQuorum, .laneReduceAnd, .laneReduceAttr, .laneSetCover, .vectorAnnSearch,
    .vectorRerankDot]

def opcodeAliases : List Op :=
  [.loadInlineIntArray, .loadInlineNodeArray, .loadInlineSetDense, .loadInlineSetRoaring,
    .initMockEdgeAttr]

def name : Op → Text
  | .halt => chars "OP_HALT"
  | .nop => chars "OP_NOP"
  | .initInputNode => chars "OP_INIT_INPUT_NODE"
  | .initInputSet => chars "OP_INIT_INPUT_SET"
  | .loadConstInt => chars "OP_LOAD_CONST_INT"
  | .mapKeysToDense => chars "OP_MAP_KEYS_TO_DENSE"
  | .loadConstFloat => chars "OP_LOAD_CONST_FLOAT"
  | .loadConstStrPrefix => chars "OP_LOAD_CONST_STR_PREFIX"
  | .loadInlineArray => chars "OP_LOAD_INLINE_ARRAY"
  | .initMockGraph => chars "OP_INIT_MOCK_GRAPH"
  | .loadInlineSet => chars "OP_LOAD_INLINE_SET"
  | .initMockNodeAttr => chars "OP_INIT_MOCK_NODE_ATTR"
  | .csrWalk2hop => chars "OP_CSR_WALK_2HOP"
  | .csrWalkState => chars "OP_CSR_WALK_STATE"
  | .csrWalk => chars "OP_CSR_WALK"
  | .csrWalkFiltered => chars "OP_CSR_WALK_FILTERED"
  | .csrDegree => chars "OP_CSR_DEGREE"
  | .csrWalkPredicate => chars "OP_CSR_WALK_PREDICATE"
  | .nodeFilter => chars "OP_NODE_FILTER"
  | .nodeFilterStrPrefix => chars "OP_NODE_FILTER_STR_PREFIX"
  | .csrWalkReduceSum => chars "OP_CSR_WALK_REDUCE_SUM"
  | .csrWalkReduce => chars "OP_CSR_WALK_REDUCE"
  | .cscWalk => chars "OP_CSC_WALK"
  | .hasCsr => chars "OP_HAS_CSR"
  | .hasCsc => chars "OP_HAS_CSC"
  | .hasCoo => chars "OP_HAS_COO"
  | .hasKeyCatalog => chars "OP_HAS_KEY_CATALOG"
  | .adaptiveWalk => chars "OP_ADAPTIVE_WALK"
  | .createScratchIndex => chars "OP_CREATE_SCRATCH_INDEX"
  | .dropScratchIndex => chars "OP_DROP_SCRATCH_INDEX"
  | .vecCmpEq => chars "OP_VEC_CMP_EQ"
  | .vecCmpGt => chars "OP_VEC_CMP_GT"
  | .vecCmpLt => chars "OP_VEC_CMP_LT"
  | .vecCmpBetween => chars "OP_VEC_CMP_BETWEEN"
  | .maskAnd => chars "OP_MASK_AND"
  | .maskOr => chars "OP_MASK_OR"
  | .maskNot => chars "OP_MASK_NOT"
  | .vecBlend => chars "OP_VEC_BLEND"
  | .assertFinite => chars "OP_ASSERT_FINITE"
  | .vecMathUnary => chars "OP_VEC_MATH_UNARY"
  | .vecMathBinary => chars "OP_VEC_MATH_BINARY"
  | .vecMathTernary => chars "OP_VEC_MATH_TERNARY"
  | .setUnion => chars "OP_SET_UNION"
  | .setIntersect => chars "OP_SET_INTERSECT"
  | .setDifference => chars "OP_SET_DIFFERENCE"
  | .setCardinality => chars "OP_SET_CARDINALITY"
  | .vectorMulAttr => chars "OP_VECTOR_MUL_ATTR"
  | .vectorReduceSum => chars "OP_VECTOR_REDUCE_SUM"
  | .vectorDiv => chars "OP_VECTOR_DIV"
  | .vectorStrConcat => chars "OP_VECTOR_STR_CONCAT"
  | .floatVectorScale => chars "OP_FLOAT_VECTOR_SCALE"
  | .l1NormDiff => chars "OP_L1_NORM_DIFF"
  | .projectState => chars "OP_PROJECT_STATE"
  | .coalesce => chars "OP_COALESCE"
  | .extractValidity => chars "OP_EXTRACT_VALIDITY"
  | .vectorTimeValidAt => chars "OP_VECTOR_TIME_VALID_AT"
  | .ccAfforest => chars "OP_CC_AFFOREST"
  | .mxv => chars "OP_MXV"
  | .vxm => chars "OP_VXM"
  | .ewiseAdd => chars "OP_EWISE_ADD"
  | .ewiseMult => chars "OP_EWISE_MULT"
  | .reduce => chars "OP_REDUCE"
  | .ccHookCompress => chars "OP_CC_HOOK_COMPRESS"
  | .tcSweepBatch => chars "OP_TC_SWEEP_BATCH"
  | .brandesForward => chars "OP_BRANDES_FORWARD"
  | .brandesBackward => chars "OP_BRANDES_BACKWARD"
  | .deltaStepRelax => chars "OP_DELTA_STEP_RELAX"
  | .readEdgeWeight => chars "OP_READ_EDGE_WEIGHT"
  | .jmp => chars "OP_JMP"
  | .jz => chars "OP_JZ"
  | .jnz => chars "OP_JNZ"
  | .loopDecr => chars "OP_LOOP_DECR"
  | .stableCheck => chars "OP_STABLE_CHECK"
  | .call => chars "OP_CALL"
  | .ret => chars "OP_RET"
  | .enterFrame => chars "OP_ENTER_FRAME"
  | .leaveFrame => chars "OP_LEAVE_FRAME"
  | .throw => chars "OP_THROW"
  | .assert => chars "OP_ASSERT"
  | .trap => chars "OP_TRAP"
  | .sampleNeighbors => chars "OP_SAMPLE_NEIGHBORS"
  | .randomWalk => chars "OP_RANDOM_WALK"
  | .scatterGather => chars "OP_SCATTER_GATHER"
  | .rebacCheck => chars "OP_REBAC_CHECK"
  | .roaringBitmapAnd => chars "OP_ROARING_BITMAP_AND"
  | .islandDetect => chars "OP_ISLAND_DETECT"
  | .sparseMatvec => chars "OP_SPARSE_MATVEC"
  | .louvainModularity => chars "OP_LOUVAIN_MODULARITY"
  | .kcoreDecomposition => chars "OP_KCORE_DECOMPOSITION"
  | .motifMatch3 => chars "OP_MOTIF_MATCH_3"
  | .graphIsomorphism => chars "OP_GRAPH_ISOMORPHISM"
  | .roaringBitmapOr => chars "OP_ROARING_BITMAP_OR"
  | .roaringBitmapAndNot => chars "OP_ROARING_BITMAP_AND_NOT"
  | .mov => chars "OP_MOV"
  | .clearReg => chars "OP_CLEAR_REG"
  | .loadIndirect => chars "OP_LOAD_INDIRECT"
  | .allocScratch => chars "OP_ALLOC_SCRATCH"
  | .assertScratchBytes => chars "OP_ASSERT_SCRATCH_BYTES"
  | .setMaxDop => chars "OP_SET_MAX_DOP"
  | .loadColumnVector => chars "OP_LOAD_COLUMN_VECTOR"
  | .gatherNodeAttr => chars "OP_GATHER_NODE_ATTR"
  | .gatherEdgeAttr => chars "OP_GATHER_EDGE_ATTR"
  | .brinZoneSkip => chars "OP_BRIN_ZONE_SKIP"
  | .csrWalkDirectStore => chars "OP_CSR_WALK_DIRECT_STORE"
  | .csrWalkDenseStream => chars "OP_CSR_WALK_DENSE_STREAM"
  | .cooWalk => chars "OP_COO_WALK"
  | .cscWalkDirectStore => chars "OP_CSC_WALK_DIRECT_STORE"
  | .fixpointKleeneStar => chars "OP_FIXPOINT_KLEENE_STAR"
  | .swapReg => chars "OP_SWAP_REG"
  | .frontierDiff => chars "OP_FRONTIER_DIFF"
  | .cooWalkFiltered => chars "OP_COO_WALK_FILTERED"
  | .cooWalkReduce => chars "OP_COO_WALK_REDUCE"
  | .cooWalkDirectStore => chars "OP_COO_WALK_DIRECT_STORE"
  | .denseWalk => chars "OP_DENSE_WALK"
  | .denseWalkBitmatrix => chars "OP_DENSE_WALK_BITMATRIX"
  | .collectBitset => chars "OP_COLLECT_BITSET"
  | .collectArray => chars "OP_COLLECT_ARRAY"
  | .mapDenseToKeys => chars "OP_MAP_DENSE_TO_KEYS"
  | .collectValueMap => chars "OP_COLLECT_VALUE_MAP"
  | .denseWalkReduce => chars "OP_DENSE_WALK_REDUCE"
  | .denseWalkDirectStore => chars "OP_DENSE_WALK_DIRECT_STORE"
  | .cooWalkStream => chars "OP_COO_WALK_STREAM"
  | .streamFuncBegin => chars "OP_STREAM_FUNC_BEGIN"
  | .streamFuncEnd => chars "OP_STREAM_FUNC_END"
  | .streamLoadSrc => chars "OP_STREAM_LOAD_SRC"
  | .streamLoadEdge => chars "OP_STREAM_LOAD_EDGE"
  | .streamMathAdd => chars "OP_STREAM_MATH_ADD"
  | .streamMathDiv => chars "OP_STREAM_MATH_DIV"
  | .streamFilter => chars "OP_STREAM_FILTER"
  | .streamReduce => chars "OP_STREAM_REDUCE"
  | .csrWalkStream => chars "OP_CSR_WALK_STREAM"
  | .cscWalkStream => chars "OP_CSC_WALK_STREAM"
  | .streamLoadTgt => chars "OP_STREAM_LOAD_TGT"
  | .streamMathSub => chars "OP_STREAM_MATH_SUB"
  | .streamMathMul => chars "OP_STREAM_MATH_MUL"
  | .streamMathMod => chars "OP_STREAM_MATH_MOD"
  | .streamMathUnary => chars "OP_STREAM_MATH_UNARY"
  | .streamCmpEq => chars "OP_STREAM_CMP_EQ"
  | .streamCmpNeq => chars "OP_STREAM_CMP_NEQ"
  | .streamCmpGt => chars "OP_STREAM_CMP_GT"
  | .streamCmpLt => chars "OP_STREAM_CMP_LT"
  | .streamLogicAnd => chars "OP_STREAM_LOGIC_AND"
  | .streamLogicOr => chars "OP_STREAM_LOGIC_OR"
  | .streamLogicNot => chars "OP_STREAM_LOGIC_NOT"
  | .streamSelect => chars "OP_STREAM_SELECT"
  | .streamReduceArgmin => chars "OP_STREAM_REDUCE_ARGMIN"
  | .streamReduceArgmax => chars "OP_STREAM_REDUCE_ARGMAX"
  | .streamLoadSrcId => chars "OP_STREAM_LOAD_SRC_ID"
  | .streamLoadTgtId => chars "OP_STREAM_LOAD_TGT_ID"
  | .streamLoadEdgeId => chars "OP_STREAM_LOAD_EDGE_ID"
  | .streamLoadConst => chars "OP_STREAM_LOAD_CONST"
  | .streamYield => chars "OP_STREAM_YIELD"
  | .streamScatterReduce => chars "OP_STREAM_SCATTER_REDUCE"
  | .laneInitSeeds => chars "OP_LANE_INIT_SEEDS"
  | .laneInitGroups => chars "OP_LANE_INIT_GROUPS"
  | .laneSetEdgeMask => chars "OP_LANE_SET_EDGE_MASK"
  | .laneCsrWalk => chars "OP_LANE_CSR_WALK"
  | .laneCscWalk => chars "OP_LANE_CSC_WALK"
  | .lanePruneMask => chars "OP_LANE_PRUNE_MASK"
  | .laneFilterQuorum => chars "OP_LANE_FILTER_QUORUM"
  | .laneReduceAnd => chars "OP_LANE_REDUCE_AND"
  | .laneReduceAttr => chars "OP_LANE_REDUCE_ATTR"
  | .laneSetCover => chars "OP_LANE_SET_COVER"
  | .vectorAnnSearch => chars "OP_VECTOR_ANN_SEARCH"
  | .vectorRerankDot => chars "OP_VECTOR_RERANK_DOT"
  | .loadInlineIntArray => chars "OP_LOAD_INLINE_INT_ARRAY"
  | .loadInlineNodeArray => chars "OP_LOAD_INLINE_NODE_ARRAY"
  | .loadInlineSetDense => chars "OP_LOAD_INLINE_SET_DENSE"
  | .loadInlineSetRoaring => chars "OP_LOAD_INLINE_SET_ROARING"
  | .initMockEdgeAttr => chars "OP_INIT_MOCK_EDGE_ATTR"

/-- `OPCODE_ALIASES.get(op_name, op_name)` -/
def canonical : Op → Op
  | .loadInlineIntArray => .loadInlineArray
  | .loadInlineNodeArray => .loadInlineSet
  | .loadInlineSetDense => .loadInlineSet
  | .loadInlineSetRoaring => .loadInlineSet
  | .initMockEdgeAttr => .initMockNodeAttr
  | op => op

/-- `OPCODES[canonical_op]`: an alias has the code of the name it stands for. -/
def code : Op → BitVec 8
  | .halt => 0x00
  | .nop => 0x01
  | .initInputNode => 0x02
  | .initInputSet => 0x03
  | .loadConstInt => 0x04
  | .mapKeysToDense => 0x05
  | .loadConstFloat => 0x06
  | .loadConstStrPrefix => 0x07
  | .loadInlineArray | .loadInlineIntArray => 0x08
  | .initMockGraph => 0x09
  | .loadInlineSet | .loadInlineNodeArray | .loadInlineSetDense | .loadInlineSetRoaring => 0x0A
  | .initMockNodeAttr | .initMockEdgeAttr => 0x0B
  | .csrWalk2hop => 0x0E
  | .csrWalkState => 0x0F
  | .csrWalk => 0x10
  | .csrWalkFiltered => 0x11
  | .csrDegree => 0x12
  | .csrWalkPredicate => 0x13
  | .nodeFilter => 0x14
  | .nodeFilterStrPrefix => 0x15
  | .csrWalkReduceSum => 0x16
  | .csrWalkReduce => 0x17
  | .cscWalk => 0x18
  | .hasCsr => 0x19
  | .hasCsc => 0x1A
  | .hasCoo => 0x1B
  | .hasKeyCatalog => 0x1C
  | .adaptiveWalk => 0x1D
  | .createScratchIndex => 0x1E
  | .dropScratchIndex => 0x1F
  | .vecCmpEq => 0x20
  | .vecCmpGt => 0x21
  | .vecCmpLt => 0x22
  | .vecCmpBetween => 0x23
  | .maskAnd => 0x24
  | .maskOr => 0x25
  | .maskNot => 0x26
  | .vecBlend => 0x27
  | .assertFinite => 0x2A
  | .vecMathUnary => 0x2D
  | .vecMathBinary => 0x2E
  | .vecMathTernary => 0x2F
  | .setUnion => 0x30
  | .setIntersect => 0x31
  | .setDifference => 0x32
  | .setCardinality => 0x33
  | .vectorMulAttr => 0x34
  | .vectorReduceSum => 0x35
  | .vectorDiv => 0x36
  | .vectorStrConcat => 0x37
  | .floatVectorScale => 0x38
  | .l1NormDiff => 0x39
  | .projectState => 0x3A
  | .coalesce => 0x3B
  | .extractValidity => 0x3C
  | .vectorTimeValidAt => 0x3D
  | .ccAfforest => 0x40
  | .mxv => 0x41
  | .vxm => 0x42
  | .ewiseAdd => 0x43
  | .ewiseMult => 0x44
  | .reduce => 0x45
  | .ccHookCompress => 0x46
  | .tcSweepBatch => 0x47
  | .brandesForward => 0x48
  | .brandesBackward => 0x49
  | .deltaStepRelax => 0x4A
  | .readEdgeWeight => 0x4B
  | .jmp => 0x50
  | .jz => 0x51
  | .jnz => 0x52
  | .loopDecr => 0x53
  | .stableCheck => 0x54
  | .call => 0x55
  | .ret => 0x56
  | .enterFrame => 0x57
  | .leaveFrame => 0x58
  | .throw => 0x5A
  | .assert => 0x5B
  | .trap => 0x5C
  | .sampleNeighbors => 0x60
  | .randomWalk => 0x61
  | .scatterGather => 0x62
  | .rebacCheck => 0x63
  | .roaringBitmapAnd => 0x64
  | .islandDetect => 0x65
  | .sparseMatvec => 0x66
  | .louvainModularity => 0x67
  | .kcoreDecomposition => 0x68
  | .motifMatch3 => 0x69
  | .graphIsomorphism => 0x6A
  | .roaringBitmapOr => 0x6B
  | .roaringBitmapAndNot => 0x6C
  | .mov => 0x70
  | .clearReg => 0x71
  | .loadIndirect => 0x72
  | .allocScratch => 0x73
  | .assertScratchBytes => 0x74
  | .setMaxDop => 0x75
  | .loadColumnVector => 0x80
  | .gatherNodeAttr => 0x81
  | .gatherEdgeAttr => 0x82
  | .brinZoneSkip => 0x83
  | .csrWalkDirectStore => 0x84
  | .csrWalkDenseStream => 0x85
  | .cooWalk => 0x86
  | .cscWalkDirectStore => 0x87
  | .fixpointKleeneStar => 0x88
  | .swapReg => 0x89
  | .frontierDiff => 0x8A
  | .cooWalkFiltered => 0x8B
  | .cooWalkReduce => 0x8C
  | .cooWalkDirectStore => 0x8D
  | .denseWalk => 0x8E
  | .denseWalkBitmatrix => 0x8F
  | .collectBitset => 0x90
  | .collectArray => 0x91
  | .mapDenseToKeys => 0x92
  | .collectValueMap => 0x93
  | .denseWalkReduce => 0x94
  | .denseWalkDirectStore => 0x95
  | .cooWalkStream => 0xA0
  | .streamFuncBegin => 0xA1
  | .streamFuncEnd => 0xA2
  | .streamLoadSrc => 0xA3
  | .streamLoadEdge => 0xA4
  | .streamMathAdd => 0xA5
  | .streamMathDiv => 0xA6
  | .streamFilter => 0xA7
  | .streamReduce => 0xA8
  | .csrWalkStream => 0xA9
  | .cscWalkStream => 0xAA
  | .streamLoadTgt => 0xAB
  | .streamMathSub => 0xAC
  | .streamMathMul => 0xAD
  | .streamMathMod => 0xAE
  | .streamMathUnary => 0xAF
  | .streamCmpEq => 0xB0
  | .streamCmpNeq => 0xB1
  | .streamCmpGt => 0xB2
  | .streamCmpLt => 0xB3
  | .streamLogicAnd => 0xB4
  | .streamLogicOr => 0xB5
  | .streamLogicNot => 0xB6
  | .streamSelect => 0xB7
  | .streamReduceArgmin => 0xB8
  | .streamReduceArgmax => 0xB9
  | .streamLoadSrcId => 0xBA
  | .streamLoadTgtId => 0xBB
  | .streamLoadEdgeId => 0xBC
  | .streamLoadConst => 0xBD
  | .streamYield => 0xBE
  | .streamScatterReduce => 0xBF
  | .laneInitSeeds => 0xC0
  | .laneInitGroups => 0xC1
  | .laneSetEdgeMask => 0xC2
  | .laneCsrWalk => 0xC3
  | .laneCscWalk => 0xC4
  | .lanePruneMask => 0xC5
  | .laneFilterQuorum => 0xC6
  | .laneReduceAnd => 0xC7
  | .laneReduceAttr => 0xC8
  | .laneSetCover => 0xC9
  | .vectorAnnSearch => 0xCA
  | .vectorRerankDot => 0xCB

/-- The mnemonics that set `pc`, enter or leave a frame, or end the run other than by
`OP_HALT`. -/
def transfersControl : Op → Bool
  | .jmp | .jz | .jnz | .loopDecr | .call | .ret | .enterFrame | .leaveFrame | .throw | .trap =>
    true
  | _ => false

def ofName? (t : Text) : Option Op := (opcodes ++ opcodeAliases).find? (·.name == t)

theorem mem_names (op : Op) : op ∈ opcodes ++ opcodeAliases := by cases op <;> decide

theorem ofName?_name (op : Op) : ofName? op.name = some op := by
  have h : ∀ o ∈ opcodes ++ opcodeAliases, ofName? o.name = some o := by decide +kernel
  exact h op (mem_names op)

theorem name_injective : Function.Injective name := fun op op' h => by
  have := ofName?_name op
  rw [h, ofName?_name op'] at this
  exact (Option.some.inj this).symm

theorem code_canonical (op : Op) : op.canonical.code = op.code := by cases op <;> rfl

theorem canonical_canonical (op : Op) : op.canonical.canonical = op.canonical := by
  cases op <;> rfl

/-- The codes of the table increase, so no two of its names share one. -/
theorem pairwise_code : opcodes.Pairwise (·.code.toNat < ·.code.toNat) := by
  rw [← List.isChain_iff_pairwise]
  decide +kernel

theorem canonical_mem (op : Op) : op.canonical ∈ opcodes := by cases op <;> decide

theorem canonical_of_mem {op : Op} (h : op ∈ opcodes) : op.canonical = op := by
  have hc : ∀ o ∈ opcodes, o.canonical = o := by decide +kernel
  exact hc op h

theorem canonical_eq_of_code_eq {op op' : Op} (h : op.code = op'.code) :
    op.canonical = op'.canonical := by
  have hne : opcodes.Pairwise (·.code ≠ ·.code) :=
    pairwise_code.imp fun hlt he => by simp [he] at hlt
  have : Std.Symm fun o o' : Op => o.code ≠ o'.code := ⟨fun _ _ h => h.symm⟩
  rw [← code_canonical op, ← code_canonical op'] at h
  by_contra hc
  exact hne.forall (canonical_mem op) (canonical_mem op') hc h

theorem code_ne_extension (op : Op) : op.code ≠ 0xFF := by cases op <;> decide

end Op

end ImpulseTools
