import ImpulseTools.Asm.Opcode

/-! # Opcode contracts

The register types, the rows of `contracts.json` with the fields the fuzzer reads, and the
variant a word is an instance of.
-/

namespace ImpulseTools

/-- `TYPE_NULL` to `TYPE_LANE_FRONTIER` -/
inductive RegType where
  | null | int64 | nodeId | relationId | bitsetHandle | nodeVector | csrSpan | boolean | float
  | double | valueMap | stringVector | floatVector | doubleVector | uint64Vector
  | frontierState | laneFrontier
  deriving DecidableEq

namespace RegType

def all : List RegType :=
  [null, int64, nodeId, relationId, bitsetHandle, nodeVector, csrSpan, boolean, float, double,
    valueMap, stringVector, floatVector, doubleVector, uint64Vector, frontierState, laneFrontier]

def tag : RegType → ℕ
  | null => 0
  | int64 => 1
  | nodeId => 2
  | relationId => 3
  | bitsetHandle => 4
  | nodeVector => 5
  | csrSpan => 6
  | boolean => 7
  | float => 8
  | double => 9
  | valueMap => 10
  | stringVector => 11
  | floatVector => 12
  | doubleVector => 13
  | uint64Vector => 14
  | frontierState => 15
  | laneFrontier => 16

end RegType

def possibleTypes (mask : ℕ) : List RegType := RegType.all.filter fun t => mask.testBit t.tag

/-- A row of `contracts.json`, without its layouts, its name and the fields of the machine. -/
structure Contract where
  mnemonic : Text
  opcode : ℕ
  flagsMask : ℕ
  flagsMatch : ℕ
  allowedSrcTypes : ℕ
  allowedAux1Types : ℕ
  allowedAux2Types : ℕ
  allowZeroSkipAux1 : Bool
  allowZeroSkipAux2 : Bool
  outputDstTypes : ℕ
  modifiesDstState : Bool
  deriving DecidableEq

def Contract.op (c : Contract) : Option Op := Op.ofName? c.mnemonic

def contracts : List Contract := [
  ⟨Op.halt.name, 0x00, 0, 0, 0, 0, 0, false, false, 0, false⟩,
  ⟨Op.nop.name, 0x01, 0, 0, 0, 0, 0, false, false, 0, false⟩,
  ⟨Op.initInputNode.name, 0x02, 0, 0, 0, 0, 0, false, false, 4, true⟩,
  ⟨Op.initInputSet.name, 0x03, 0, 0, 0, 0, 0, false, false, 16, true⟩,
  ⟨Op.loadConstInt.name, 0x04, 0, 0, 0, 0, 0, false, false, 2, true⟩,
  ⟨Op.mapKeysToDense.name, 0x05, 0, 0, 0, 0, 0, false, false, 16, true⟩,
  ⟨Op.loadConstFloat.name, 0x06, 0, 0, 0, 0, 0, false, false, 256, true⟩,
  ⟨Op.loadConstStrPrefix.name, 0x07, 0, 0, 0, 0, 0, false, false, 2, true⟩,
  ⟨Op.loadInlineArray.name, 0x08, 1, 0, 0, 0, 0, false, false, 4096, true⟩,
  ⟨Op.loadInlineArray.name, 0x08, 1, 1, 0, 0, 0, false, false, 32, true⟩,
  ⟨Op.initMockGraph.name, 0x09, 0, 0, 0, 0, 0, false, false, 0, false⟩,
  ⟨Op.loadInlineSet.name, 0x0A, 0, 0, 0, 0, 0, false, false, 16, true⟩,
  ⟨Op.initMockNodeAttr.name, 0x0B, 0, 0, 28704, 16, 0, true, false, 0, false⟩,
  ⟨Op.initMockEdgeAttr.name, 0x0C, 0, 0, 28704, 16, 0, true, false, 0, false⟩,
  ⟨Op.csrWalk2hop.name, 0x0E, 128, 0, 0, 0, 0, false, false, 16, true⟩,
  ⟨Op.csrWalkState.name, 0x0F, 128, 0, 0, 0, 0, false, false, 32768, true⟩,
  ⟨Op.csrWalk.name, 0x10, 7, 0, 16439, 0, 0, false, false, 16, true⟩,
  ⟨Op.csrWalk.name, 0x10, 7, 4, 16439, 0, 0, false, false, 16, true⟩,
  ⟨Op.csrWalkFiltered.name, 0x11, 128, 0, 16438, 16, 0, false, false, 16, true⟩,
  ⟨Op.csrDegree.name, 0x12, 128, 0, 22, 0, 0, false, false, 2, true⟩,
  ⟨Op.csrWalkPredicate.name, 0x13, 128, 0, 16438, 0, 0, false, false, 16, true⟩,
  ⟨Op.nodeFilter.name, 0x14, 0, 0, 22, 262, 0, false, false, 16, true⟩,
  ⟨Op.nodeFilterStrPrefix.name, 0x15, 0, 0, 22, 6, 0, false, false, 16, true⟩,
  ⟨Op.csrWalkReduceSum.name, 0x16, 128, 0, 12310, 0, 0, false, false, 12290, true⟩,
  ⟨Op.csrWalkReduce.name, 0x17, 0, 0, 12310, 0, 0, false, false, 12288, true⟩,
  ⟨Op.cscWalk.name, 0x18, 7, 0, 16439, 0, 0, false, false, 16, true⟩,
  ⟨Op.hasCsr.name, 0x19, 0, 0, 0, 0, 0, false, false, 2, true⟩,
  ⟨Op.hasCsc.name, 0x1A, 0, 0, 0, 0, 0, false, false, 2, true⟩,
  ⟨Op.hasCoo.name, 0x1B, 0, 0, 0, 0, 0, false, false, 2, true⟩,
  ⟨Op.hasKeyCatalog.name, 0x1C, 0, 0, 0, 0, 0, false, false, 2, true⟩,
  ⟨Op.adaptiveWalk.name, 0x1D, 128, 0, 16439, 0, 0, false, false, 0, false⟩,
  ⟨Op.createScratchIndex.name, 0x1E, 0, 0, 0, 0, 0, false, false, 0, false⟩,
  ⟨Op.dropScratchIndex.name, 0x1F, 0, 0, 0, 0, 0, false, false, 0, false⟩,
  ⟨Op.vecCmpEq.name, 0x20, 0, 0, 28966, 28966, 0, false, false, 16, true⟩,
  ⟨Op.vecCmpGt.name, 0x21, 0, 0, 28966, 28966, 0, false, false, 16, true⟩,
  ⟨Op.vecCmpLt.name, 0x22, 0, 0, 28966, 28966, 0, false, false, 16, true⟩,
  ⟨Op.vecCmpBetween.name, 0x23, 0, 0, 28967, 28967, 28967, false, false, 16, true⟩,
  ⟨Op.maskAnd.name, 0x24, 0, 0, 23, 23, 0, false, false, 16, true⟩,
  ⟨Op.maskOr.name, 0x25, 0, 0, 23, 23, 0, false, false, 16, true⟩,
  ⟨Op.maskNot.name, 0x26, 0, 0, 23, 0, 0, false, false, 16, true⟩,
  ⟨Op.vecBlend.name, 0x27, 0, 0, 16, 28704, 28704, false, false, 28704, true⟩,
  ⟨Op.assertFinite.name, 0x2A, 0, 0, 0, 0, 0, false, false, 0, false⟩,
  ⟨Op.vecMathUnary.name, 0x2D, 0, 0, 12544, 0, 0, false, false, 12544, true⟩,
  ⟨Op.vecMathBinary.name, 0x2E, 0, 0, 12544, 12544, 0, false, false, 12544, true⟩,
  ⟨Op.vecMathTernary.name, 0x2F, 0, 0, 12288, 12288, 12288, false, false, 12288, true⟩,
  ⟨Op.setUnion.name, 0x30, 0, 0, 29495, 29495, 0, false, false, 16, true⟩,
  ⟨Op.setIntersect.name, 0x31, 0, 0, 29495, 29495, 0, false, false, 16, true⟩,
  ⟨Op.setDifference.name, 0x32, 0, 0, 29495, 29495, 0, false, false, 16, true⟩,
  ⟨Op.setCardinality.name, 0x33, 0, 0, 16438, 0, 0, false, false, 2, true⟩,
  ⟨Op.vectorMulAttr.name, 0x34, 1, 0, 0, 0, 0, false, false, 12288, true⟩,
  ⟨Op.vectorMulAttr.name, 0x34, 1, 1, 12294, 0, 0, false, false, 12288, true⟩,
  ⟨Op.vectorReduceSum.name, 0x35, 0, 0, 13056, 0, 0, false, false, 768, true⟩,
  ⟨Op.vectorDiv.name, 0x36, 0, 0, 13062, 13062, 0, false, false, 12288, true⟩,
  ⟨Op.vectorStrConcat.name, 0x37, 0, 0, 2048, 2048, 0, false, false, 2048, true⟩,
  ⟨Op.floatVectorScale.name, 0x38, 1, 0, 0, 0, 0, false, false, 0, false⟩,
  ⟨Op.floatVectorScale.name, 0x38, 1, 1, 774, 0, 0, false, false, 0, false⟩,
  ⟨Op.l1NormDiff.name, 0x39, 0, 0, 4354, 4354, 0, false, false, 256, true⟩,
  ⟨Op.projectState.name, 0x3A, 0, 0, 32768, 0, 0, false, false, 32768, true⟩,
  ⟨Op.coalesce.name, 0x3B, 0, 0, 131071, 131071, 0, false, false, 131071, true⟩,
  ⟨Op.extractValidity.name, 0x3C, 0, 0, 28704, 0, 0, false, false, 16, true⟩,
  ⟨Op.vectorTimeValidAt.name, 0x3D, 0, 0, 4134, 0, 0, false, false, 16, true⟩,
  ⟨Op.ccAfforest.name, 0x40, 0, 0, 0, 0, 0, false, false, 16416, true⟩,
  ⟨Op.mxv.name, 0x41, 255, 0, 12288, 0, 0, false, false, 12288, true⟩,
  ⟨Op.vxm.name, 0x42, 255, 0, 12288, 0, 0, false, false, 12288, true⟩,
  ⟨Op.ewiseAdd.name, 0x43, 0, 0, 12288, 12288, 0, false, false, 12288, true⟩,
  ⟨Op.ewiseMult.name, 0x44, 0, 0, 12288, 12288, 0, false, false, 12288, true⟩,
  ⟨Op.reduce.name, 0x45, 0, 0, 28704, 0, 0, false, false, 770, true⟩,
  ⟨Op.reduce.name, 0x45, 0, 0, 28704, 0, 0, false, false, 4, true⟩,
  ⟨Op.ccHookCompress.name, 0x46, 0, 0, 0, 0, 0, false, false, 0, false⟩,
  ⟨Op.tcSweepBatch.name, 0x47, 0, 0, 0, 0, 0, false, false, 0, false⟩,
  ⟨Op.brandesForward.name, 0x48, 0, 0, 0, 0, 0, false, false, 0, false⟩,
  ⟨Op.brandesBackward.name, 0x49, 0, 0, 0, 0, 0, false, false, 0, false⟩,
  ⟨Op.deltaStepRelax.name, 0x4A, 0, 0, 0, 0, 0, false, false, 0, false⟩,
  ⟨Op.readEdgeWeight.name, 0x4B, 128, 0, 6, 6, 0, false, false, 256, true⟩,
  ⟨Op.jmp.name, 0x50, 0, 0, 0, 0, 0, false, false, 0, false⟩,
  ⟨Op.jz.name, 0x51, 0, 0, 0, 0, 0, false, false, 0, false⟩,
  ⟨Op.jnz.name, 0x52, 0, 0, 0, 0, 0, false, false, 0, false⟩,
  ⟨Op.loopDecr.name, 0x53, 0, 0, 0, 0, 0, false, false, 2, true⟩,
  ⟨Op.stableCheck.name, 0x54, 0, 0, 22, 0, 0, false, false, 0, false⟩,
  ⟨Op.call.name, 0x55, 0, 0, 0, 0, 0, false, false, 0, false⟩,
  ⟨Op.ret.name, 0x56, 0, 0, 0, 0, 0, false, false, 0, false⟩,
  ⟨Op.enterFrame.name, 0x57, 0, 0, 0, 0, 0, false, false, 0, false⟩,
  ⟨Op.leaveFrame.name, 0x58, 0, 0, 0, 0, 0, false, false, 0, false⟩,
  ⟨Op.throw.name, 0x5A, 0, 0, 0, 0, 0, false, false, 0, false⟩,
  ⟨Op.assert.name, 0x5B, 1, 0, 390, 0, 0, false, false, 0, false⟩,
  ⟨Op.trap.name, 0x5C, 0, 0, 0, 0, 0, false, false, 0, false⟩,
  ⟨Op.sampleNeighbors.name, 0x60, 0, 0, 16438, 0, 0, false, false, 48, true⟩,
  ⟨Op.randomWalk.name, 0x61, 0, 0, 16438, 0, 0, false, false, 32, true⟩,
  ⟨Op.scatterGather.name, 0x62, 0, 0, 28726, 0, 0, false, false, 28704, true⟩,
  ⟨Op.rebacCheck.name, 0x63, 0, 0, 22, 0, 0, false, false, 130, true⟩,
  ⟨Op.roaringBitmapAnd.name, 0x64, 0, 0, 23, 23, 0, false, false, 16, true⟩,
  ⟨Op.islandDetect.name, 0x65, 128, 0, 22, 22, 0, true, false, 2, true⟩,
  ⟨Op.sparseMatvec.name, 0x66, 0, 0, 28704, 0, 0, false, false, 12288, true⟩,
  ⟨Op.louvainModularity.name, 0x67, 0, 0, 16438, 0, 0, false, false, 16416, true⟩,
  ⟨Op.kcoreDecomposition.name, 0x68, 0, 0, 14, 0, 0, false, false, 4096, true⟩,
  ⟨Op.motifMatch3.name, 0x69, 0, 0, 16438, 0, 0, false, false, 2, true⟩,
  ⟨Op.graphIsomorphism.name, 0x6A, 0, 0, 16438, 0, 0, false, false, 130, true⟩,
  ⟨Op.roaringBitmapOr.name, 0x6B, 0, 0, 23, 23, 0, false, false, 16, true⟩,
  ⟨Op.roaringBitmapAndNot.name, 0x6C, 0, 0, 23, 23, 0, false, false, 16, true⟩,
  ⟨Op.mov.name, 0x70, 0, 0, 131071, 0, 0, false, false, 131071, true⟩,
  ⟨Op.clearReg.name, 0x71, 0, 0, 0, 0, 0, false, false, 1, true⟩,
  ⟨Op.loadIndirect.name, 0x72, 1, 0, 6, 0, 0, false, false, 131071, true⟩,
  ⟨Op.loadIndirect.name, 0x72, 1, 1, 4102, 6, 0, false, false, 256, true⟩,
  ⟨Op.allocScratch.name, 0x73, 0, 0, 0, 0, 0, false, false, 2, true⟩,
  ⟨Op.assertScratchBytes.name, 0x74, 0, 0, 0, 0, 0, false, false, 2, true⟩,
  ⟨Op.setMaxDop.name, 0x75, 0, 0, 0, 0, 0, false, false, 2, true⟩,
  ⟨Op.loadColumnVector.name, 0x80, 0, 0, 0, 0, 0, false, false, 4096, true⟩,
  ⟨Op.gatherNodeAttr.name, 0x81, 128, 0, 22, 0, 0, false, false, 4096, true⟩,
  ⟨Op.gatherNodeAttr.name, 0x81, 128, 128, 22, 0, 0, false, false, 4096, true⟩,
  ⟨Op.gatherEdgeAttr.name, 0x82, 128, 0, 22, 0, 0, false, false, 4096, true⟩,
  ⟨Op.brinZoneSkip.name, 0x83, 0, 0, 22, 0, 0, false, false, 2, true⟩,
  ⟨Op.csrWalkDirectStore.name, 0x84, 128, 0, 22, 0, 0, false, false, 16, true⟩,
  ⟨Op.csrWalkDenseStream.name, 0x85, 0, 0, 22, 0, 0, false, false, 16, true⟩,
  ⟨Op.cooWalk.name, 0x86, 0, 0, 22, 0, 0, false, false, 16, true⟩,
  ⟨Op.cscWalkDirectStore.name, 0x87, 0, 0, 22, 0, 0, false, false, 16, true⟩,
  ⟨Op.fixpointKleeneStar.name, 0x88, 0, 0, 22, 0, 0, false, false, 16, true⟩,
  ⟨Op.swapReg.name, 0x89, 0, 0, 131071, 0, 0, false, false, 131071, true⟩,
  ⟨Op.frontierDiff.name, 0x8A, 0, 0, 16, 16, 0, false, false, 16, true⟩,
  ⟨Op.cooWalkFiltered.name, 0x8B, 0, 0, 22, 22, 0, false, false, 16, true⟩,
  ⟨Op.cooWalkReduce.name, 0x8C, 0, 0, 22, 0, 0, false, false, 4096, true⟩,
  ⟨Op.cooWalkDirectStore.name, 0x8D, 0, 0, 22, 0, 0, false, false, 16, true⟩,
  ⟨Op.denseWalk.name, 0x8E, 0, 0, 22, 0, 0, false, false, 16, true⟩,
  ⟨Op.denseWalkBitmatrix.name, 0x8F, 0, 0, 22, 0, 0, false, false, 16, true⟩,
  ⟨Op.collectBitset.name, 0x90, 0, 0, 81975, 0, 0, false, false, 81975, true⟩,
  ⟨Op.collectArray.name, 0x91, 0, 0, 81975, 0, 0, false, false, 32, true⟩,
  ⟨Op.mapDenseToKeys.name, 0x92, 0, 0, 81974, 0, 0, false, false, 2048, true⟩,
  ⟨Op.collectValueMap.name, 0x93, 0, 0, 81974, 12288, 0, false, false, 1024, true⟩,
  ⟨Op.denseWalkReduce.name, 0x94, 0, 0, 0, 0, 0, false, false, 4096, true⟩,
  ⟨Op.denseWalkDirectStore.name, 0x95, 0, 0, 16438, 0, 0, false, false, 16, true⟩,
  ⟨Op.cooWalkStream.name, 0xA0, 0, 0, 16438, 0, 0, false, false, 16, true⟩,
  ⟨Op.csrWalkStream.name, 0xA9, 0, 0, 16438, 0, 0, false, false, 16, true⟩,
  ⟨Op.cscWalkStream.name, 0xAA, 0, 0, 16438, 0, 0, false, false, 16, true⟩,
  ⟨Op.streamFuncBegin.name, 0xA1, 0, 0, 0, 0, 0, false, false, 0, false⟩,
  ⟨Op.streamFuncEnd.name, 0xA2, 0, 0, 0, 0, 0, false, false, 0, false⟩,
  ⟨Op.streamLoadSrc.name, 0xA3, 0, 0, 0, 0, 0, false, false, 0, false⟩,
  ⟨Op.streamLoadEdge.name, 0xA4, 0, 0, 0, 0, 0, false, false, 0, false⟩,
  ⟨Op.streamMathAdd.name, 0xA5, 0, 0, 0, 0, 0, false, false, 0, false⟩,
  ⟨Op.streamMathDiv.name, 0xA6, 0, 0, 0, 0, 0, false, false, 0, false⟩,
  ⟨Op.streamFilter.name, 0xA7, 0, 0, 0, 0, 0, false, false, 0, false⟩,
  ⟨Op.streamReduce.name, 0xA8, 0, 0, 0, 0, 0, false, false, 0, false⟩,
  ⟨Op.streamLoadTgt.name, 0xAB, 0, 0, 0, 0, 0, false, false, 0, false⟩,
  ⟨Op.streamMathSub.name, 0xAC, 0, 0, 0, 0, 0, false, false, 0, false⟩,
  ⟨Op.streamMathMul.name, 0xAD, 0, 0, 0, 0, 0, false, false, 0, false⟩,
  ⟨Op.streamMathMod.name, 0xAE, 0, 0, 0, 0, 0, false, false, 0, false⟩,
  ⟨Op.streamMathUnary.name, 0xAF, 0, 0, 0, 0, 0, false, false, 0, false⟩,
  ⟨Op.streamCmpEq.name, 0xB0, 0, 0, 0, 0, 0, false, false, 0, false⟩,
  ⟨Op.streamCmpNeq.name, 0xB1, 0, 0, 0, 0, 0, false, false, 0, false⟩,
  ⟨Op.streamCmpGt.name, 0xB2, 0, 0, 0, 0, 0, false, false, 0, false⟩,
  ⟨Op.streamCmpLt.name, 0xB3, 0, 0, 0, 0, 0, false, false, 0, false⟩,
  ⟨Op.streamLogicAnd.name, 0xB4, 0, 0, 0, 0, 0, false, false, 0, false⟩,
  ⟨Op.streamLogicOr.name, 0xB5, 0, 0, 0, 0, 0, false, false, 0, false⟩,
  ⟨Op.streamLogicNot.name, 0xB6, 0, 0, 0, 0, 0, false, false, 0, false⟩,
  ⟨Op.streamSelect.name, 0xB7, 0, 0, 0, 0, 0, false, false, 0, false⟩,
  ⟨Op.streamReduceArgmin.name, 0xB8, 0, 0, 0, 0, 0, false, false, 0, false⟩,
  ⟨Op.streamReduceArgmax.name, 0xB9, 0, 0, 0, 0, 0, false, false, 0, false⟩,
  ⟨Op.streamLoadSrcId.name, 0xBA, 0, 0, 0, 0, 0, false, false, 0, false⟩,
  ⟨Op.streamLoadTgtId.name, 0xBB, 0, 0, 0, 0, 0, false, false, 0, false⟩,
  ⟨Op.streamLoadEdgeId.name, 0xBC, 0, 0, 0, 0, 0, false, false, 0, false⟩,
  ⟨Op.streamLoadConst.name, 0xBD, 0, 0, 0, 0, 0, false, false, 0, false⟩,
  ⟨Op.streamYield.name, 0xBE, 0, 0, 0, 0, 0, false, false, 0, false⟩,
  ⟨Op.streamScatterReduce.name, 0xBF, 0, 0, 0, 0, 0, false, false, 0, false⟩,
  ⟨Op.laneInitSeeds.name, 0xC0, 1, 0, 16439, 0, 0, false, false, 65536, true⟩,
  ⟨Op.laneInitSeeds.name, 0xC0, 1, 1, 0, 0, 0, false, false, 65536, true⟩,
  ⟨Op.laneInitGroups.name, 0xC1, 3, 0, 16416, 0, 0, false, false, 65536, true⟩,
  ⟨Op.laneInitGroups.name, 0xC1, 3, 1, 16416, 0, 0, false, false, 65536, true⟩,
  ⟨Op.laneSetEdgeMask.name, 0xC2, 1, 0, 65536, 0, 0, false, false, 65536, true⟩,
  ⟨Op.laneSetEdgeMask.name, 0xC2, 1, 1, 65536, 16422, 0, false, false, 65536, true⟩,
  ⟨Op.laneCsrWalk.name, 0xC3, 3, 0, 65536, 0, 0, false, false, 65536, true⟩,
  ⟨Op.laneCsrWalk.name, 0xC3, 3, 1, 65536, 0, 0, false, false, 65536, true⟩,
  ⟨Op.laneCscWalk.name, 0xC4, 3, 0, 65536, 0, 0, false, false, 65536, true⟩,
  ⟨Op.laneCscWalk.name, 0xC4, 3, 1, 65536, 0, 0, false, false, 65536, true⟩,
  ⟨Op.lanePruneMask.name, 0xC5, 3, 0, 65536, 16438, 0, false, false, 65536, true⟩,
  ⟨Op.lanePruneMask.name, 0xC5, 3, 1, 65536, 0, 0, false, false, 65536, true⟩,
  ⟨Op.lanePruneMask.name, 0xC5, 3, 3, 65536, 0, 0, false, false, 65536, true⟩,
  ⟨Op.lanePruneMask.name, 0xC5, 3, 2, 65536, 16422, 0, true, false, 65536, true⟩,
  ⟨Op.laneFilterQuorum.name, 0xC6, 1, 0, 65536, 0, 0, false, false, 16, true⟩,
  ⟨Op.laneFilterQuorum.name, 0xC6, 1, 1, 65536, 6, 6, true, true, 16, true⟩,
  ⟨Op.laneReduceAnd.name, 0xC7, 3, 0, 65536, 0, 0, false, false, 2, true⟩,
  ⟨Op.laneReduceAnd.name, 0xC7, 3, 1, 65536, 0, 0, false, false, 2, true⟩,
  ⟨Op.laneReduceAnd.name, 0xC7, 3, 2, 65536, 0, 0, false, false, 2, true⟩,
  ⟨Op.laneReduceAttr.name, 0xC8, 1, 0, 65536, 0, 0, false, false, 4096, true⟩,
  ⟨Op.laneReduceAttr.name, 0xC8, 1, 1, 65536, 28704, 0, false, false, 4096, true⟩,
  ⟨Op.laneReduceAttr.name, 0xC8, 1, 1, 65536, 28704, 0, false, false, 16416, true⟩,
  ⟨Op.laneSetCover.name, 0xC9, 1, 0, 65536, 6, 0, true, false, 32, true⟩,
  ⟨Op.laneSetCover.name, 0xC9, 1, 1, 65536, 6, 0, true, false, 32, true⟩,
  ⟨Op.vectorAnnSearch.name, 0xCA, 1, 0, 4096, 0, 0, false, false, 16, true⟩,
  ⟨Op.vectorAnnSearch.name, 0xCA, 1, 1, 4096, 0, 0, false, false, 65536, true⟩,
  ⟨Op.vectorRerankDot.name, 0xCB, 0, 0, 65552, 4096, 0, false, false, 4096, true⟩]

end ImpulseTools
