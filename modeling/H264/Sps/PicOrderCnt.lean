import H264.Bits.Element
import H264.Bits.Reader

/-!
# Picture order count

How a sequence codes the output order of its pictures: by the low bits of the count, by offsets
that repeat with a cycle of reference frames, or not at all, when output order is decoding order.
-/

namespace H264

/-- The coding of picture order counts of a sequence. -/
inductive PicOrderCnt
  | lowBits (log2MaxLsbMinus4 : Nat)
  | offsets (deltaAlwaysZero : Bool) (nonRefPic topToBottomField : Int) (refFrames : List Int)
  | decodingOrder
deriving DecidableEq, Repr, Inhabited

namespace PicOrderCnt

/-- The `pic_order_cnt_type` of a coding. -/
def type : PicOrderCnt → Nat
  | lowBits .. => 0
  | offsets .. => 1
  | decodingOrder => 2

/-- The offsets of type 1. -/
def readOffsets : Read PicOrderCnt := do
  let deltaAlwaysZero ← Read.flag "delta_pic_order_always_zero_flag"
  let nonRefPic ← Read.se "offset_for_non_ref_pic"
  let topToBottomField ← Read.se "offset_for_top_to_bottom_field"
  let count ← Read.ueMax "num_ref_frames_in_pic_order_cnt_cycle" 255
  let refFrames ← Read.times (Read.se "offset_for_ref_frame") count
  return .offsets deltaAlwaysZero nonRefPic topToBottomField refFrames

/-- The coding, after its type. -/
def read : Read PicOrderCnt := do
  match ← Read.ue "pic_order_cnt_type" with
  | 0 => return .lowBits (← Read.ueMax "log2_max_pic_order_cnt_lsb_minus4" 12)
  | 1 => readOffsets
  | 2 => return .decodingOrder
  | type => throw (.illegal "pic_order_cnt_type" type .knownPicOrderCntType)

/-- The elements of a coding. -/
def elements (coding : PicOrderCnt) : List Element :=
  .ue coding.type ::
  match coding with
  | lowBits log2MaxLsbMinus4 => [.ue log2MaxLsbMinus4]
  | offsets deltaAlwaysZero nonRefPic topToBottomField refFrames =>
    [.flag deltaAlwaysZero, .se nonRefPic, .se topToBottomField, .ue refFrames.length] ++
    refFrames.map .se
  | decodingOrder => []

end PicOrderCnt

end H264
