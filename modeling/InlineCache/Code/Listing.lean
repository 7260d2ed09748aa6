import InlineCache.Code.Inst

/-!
Instructions in listings: the name of an instruction with its fields in order.
-/

namespace InlineCache

namespace Listing

/-- A name with named fields between braces. -/
def record (name : String) (fields : List (String × String)) : String :=
  name ++ " \x7b " ++ ", ".intercalate (fields.map fun (field, text) => field ++ ": " ++ text) ++
    " \x7d"

def ofOption : Option String → String
  | some text => "Some(" ++ text ++ ")"
  | none => "None"

def ofLabel (label : Label) : String :=
  s!"Label({label})"

end Listing

def Register.listing (r : Register) : String :=
  s!"Register({r.index})"

def FloatRegister.listing (f : FloatRegister) : String :=
  s!"FloatRegister({f.index})"

namespace Source

def listing : Source → String
  | .reg r => "Reg(" ++ r.listing ++ ")"
  | .imm w => "Imm(" ++ toString w.toInt64.toInt ++ ")"

/-- A source that is compared with a class; the address of a class is listed by its name. -/
def classListing : Source → String
  | .reg r => "Reg(" ++ r.listing ++ ")"
  | .imm w =>
      match Block.ofAddress? w with
      | some (.descriptor kind) => "Imm(class:" ++ kind.className ++ ")"
      | _ => "Imm(" ++ toString w.toInt64.toInt ++ ")"

end Source

open Listing in
def Inst.listing : Inst → String
  | .bind label => "Bind(" ++ ofLabel label ++ ")"
  | .jump label => "Jump(" ++ ofLabel label ++ ")"
  | .ret status => "Ret(" ++ status.label ++ ")"
  | .loadInput dst index =>
      record "LoadInput" [("dst", dst.listing), ("index", toString index)]
  | .storeOutput src => record "StoreOutput" [("src", src.listing)]
  | .movImm dst imm => record "MovImm" [("dst", dst.listing), ("imm", toString imm)]
  | .mov dst src => record "Mov" [("dst", dst.listing), ("src", src.listing)]
  | .loadStubWord dst offset =>
      record "LoadStubWord" [("dst", dst.listing), ("offset", toString offset)]
  | .load64 dst base offset =>
      record "Load64" [("dst", dst.listing), ("base", base.listing), ("offset", offset.listing)]
  | .load32 dst base offset =>
      record "Load32"
        [("dst", dst.listing), ("base", base.listing), ("offset", toString offset.toInt)]
  | .loadIndexed64 dst base index =>
      record "LoadIndexed64"
        [("dst", dst.listing), ("base", base.listing), ("index", index.listing)]
  | .spill slot src => record "Spill" [("slot", toString slot), ("src", src.listing)]
  | .restore dst slot => record "Restore" [("dst", dst.listing), ("slot", toString slot)]
  | .spillFloat slot src => record "SpillFloat" [("slot", toString slot), ("src", src.listing)]
  | .reloadFloat dst slot => record "ReloadFloat" [("dst", dst.listing), ("slot", toString slot)]
  | .saveFloat src slot => record "SaveFloat" [("src", src.listing), ("slot", toString slot)]
  | .restoreFloat dst slot => record "RestoreFloat" [("dst", dst.listing), ("slot", toString slot)]
  | .branchTestType cond value type target =>
      record "BranchTestType"
        [("cond", cond.label), ("value", value.listing), ("ty", type.label),
          ("target", ofLabel target)]
  | .branchTestNumber cond value target =>
      record "BranchTestNumber"
        [("cond", cond.label), ("value", value.listing), ("target", ofLabel target)]
  | .branch32 cond lhs rhs target =>
      record "Branch32"
        [("cond", cond.label), ("lhs", lhs.listing), ("rhs", rhs.listing),
          ("target", ofLabel target)]
  | .branchPtr cond lhs rhs target =>
      record "BranchPtr"
        [("cond", cond.label), ("lhs", lhs.listing), ("rhs", rhs.listing),
          ("target", ofLabel target)]
  | .branchTestShape cond obj shape scratch zeroed target =>
      record "BranchTestObjShape"
        [("cond", cond.label), ("obj", obj.listing), ("shape", shape.listing),
          ("scratch", scratch.listing),
          ("spectre_reg_to_zero", ofOption (zeroed.map Register.listing)),
          ("target", ofLabel target)]
  | .branchTestClass cond obj classWord scratch zeroed target =>
      record "BranchTestObjClass"
        [("cond", cond.label), ("obj", obj.listing), ("class", classWord.classListing),
          ("scratch", scratch.listing),
          ("spectre_reg_to_zero", ofOption (zeroed.map Register.listing)),
          ("target", ofLabel target)]
  | .cmpSet cond lhs rhs dst =>
      record "CmpSet"
        [("cond", cond.label), ("lhs", lhs.listing), ("rhs", rhs.listing), ("dst", dst.listing)]
  | .andImm reg imm => record "AndImm" [("reg", reg.listing), ("imm", toString imm)]
  | .unboxPayload src dst type =>
      record "UnboxPayload" [("src", src.listing), ("dst", dst.listing), ("ty", type.label)]
  | .boxPayload src dst type =>
      record "BoxPayload" [("src", src.listing), ("dst", dst.listing), ("ty", type.label)]
  | .loadValueTag src dst => record "LoadValueTag" [("src", src.listing), ("dst", dst.listing)]
  | .unboxDouble src dst => record "UnboxDouble" [("src", src.listing), ("dst", dst.listing)]
  | .boxDouble src dst => record "BoxDouble" [("src", src.listing), ("dst", dst.listing)]
  | .unboxNumber src dst => record "UnboxNumber" [("src", src.listing), ("dst", dst.listing)]
  | .int32ToDouble src dst => record "Int32ToDouble" [("src", src.listing), ("dst", dst.listing)]
  | .doubleToInt32Exact src dst fail =>
      record "DoubleToInt32Exact"
        [("src", src.listing), ("dst", dst.listing), ("fail", ofLabel fail)]
  | .doubleToIntPtrExact src dst fail =>
      record "DoubleToIntPtrExact"
        [("src", src.listing), ("dst", dst.listing), ("fail", ofLabel fail)]
  | .truncateDoubleModUint32 src dst fail =>
      record "TruncateDoubleModUint32"
        [("src", src.listing), ("dst", dst.listing), ("fail", ofLabel fail)]
  | .clampDoubleToUint8 src dst =>
      record "ClampDoubleToUint8" [("src", src.listing), ("dst", dst.listing)]
  | .clampInt32ToUint8 reg => record "ClampInt32ToUint8" [("reg", reg.listing)]
  | .int32ToIntPtr src dst => record "Int32ToIntPtr" [("src", src.listing), ("dst", dst.listing)]
  | .boxIntPtr src dst scratch =>
      record "BoxIntPtr"
        [("src", src.listing), ("dst", dst.listing), ("scratch", scratch.listing)]
  | .spectreMaskIndex index length dst =>
      record "SpectreMaskIndex"
        [("index", index.listing), ("length", length.listing), ("dst", dst.listing)]
  | .callHelper helper a b c dst exception =>
      record "CallHelper"
        [("helper", helper.label),
          ("args", "[" ++ ", ".intercalate [a.listing, b.listing, c.listing] ++ "]"),
          ("dst", dst.listing), ("exception", ofLabel exception)]

end InlineCache
