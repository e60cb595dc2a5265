import ImAcc.Lib.JsonText
import ImAcc.Md5c
import ImAcc.Push

-- The signature of a push: im_get_string_md5 over the digest, and its two calls.
namespace ImAcc
open JsonC JsonText Md5

-- The sixteen strcats, onto what des holds. The context is a local of MD5.
def imGetStringMd5 (stack : Md5Ctx) (string des : Bytes) : Bytes :=
  (md5 stack string).foldl (fun des b => des ++ [Json.hexDigit (b.toNat/16),Json.hexDigit (b.toNat%16)]) des

theorem hexDigit_hex (b : UInt8) : [Json.hexDigit (b.toNat/16),Json.hexDigit (b.toNat%16)] =
    [hexDigits.getD (b.toNat/16) 0,hexDigits.getD (b.toNat%16) 0] := by
  have digit : ∀ n < 16, Json.hexDigit n = hexDigits.getD n 0 := by decide
  have below := b.toNat_lt
  rw [digit _ (by omega),digit _ (by omega)]

theorem imGetStringMd5_hex (stack : Md5Ctx) (string des : Bytes) :
    imGetStringMd5 stack string des = des ++ hex (md5 stack string) := by
  unfold imGetStringMd5
  generalize md5 stack string = digest
  induction digest generalizing des with
  | nil => exact (List.append_nil des).symm
  | cons b rest ih => rw [List.foldl_cons,ih,hexDigit_hex,List.append_assoc]; rfl

theorem imGetStringMd5_appends (stack : Md5Ctx) (clean : (0 : UInt8) ∉ string) (few : string.length < 2^32) (des : Bytes) :
    imGetStringMd5 stack string des = des ++ hex (digest string) := by
  have whole := cString_whole clean
  rw [imGetStringMd5_hex,md5_digest stack (by rwa [whole]),whole]

def pushed (stack : Md5Ctx) (iosinfo : List IosinfoCmd) (notyMsg : Bytes) (tim : Int) : Bytes × Bytes :=
  imJsonMakeCmdBrocastIOS (fun string => imGetStringMd5 stack string []) iosinfo notyMsg tim

theorem pushed_length (stack : Md5Ctx) (iosinfo : List IosinfoCmd) (notyMsg : Bytes) (tim : Int) :
    (pushed stack iosinfo notyMsg tim).2.length = 32 := by
  change (imGetStringMd5 stack
    (imGetStringMd5 stack ((pushed stack iosinfo notyMsg tim).1 ++ signKey) [] ++ signKey) []).length = _
  rw [imGetStringMd5_hex,List.nil_append,hex_length]
  rfl

theorem add_clean (clean : ∀ member ∈ t.members, (0 : UInt8) ∉ member.2.toText) (key : JsonImCmd)
    (value : (0 : UInt8) ∉ Json.toText v) : ∀ member ∈ (TermData.add key v t).members, (0 : UInt8) ∉ member.2.toText := by
  intro member inside
  rcases Json.mem_membersAdd inside with rfl | kept
  · exact value
  · exact clean member kept

theorem pushed_clean (stack : Md5Ctx) (iosinfo : List IosinfoCmd) (notyMsg : Bytes) (tim : Int) :
    (0 : UInt8) ∉ (pushed stack iosinfo notyMsg tim).1 := by
  have text (s : Bytes) : (0 : UInt8) ∉ (Json.string s).toText := quote_clean s
  have number (i : Int) : (0 : UInt8) ∉ (Json.int i).toText := decimal_clean i
  have devices (t : TermData) (clean : ∀ member ∈ t.members, (0 : UInt8) ∉ member.2.toText) :
      ∀ member ∈ (iosinfo.foldl (brocastDevice notyMsg) t).members, (0 : UInt8) ∉ member.2.toText := by
    induction iosinfo generalizing t with
    | nil => exact clean
    | cons slot rest ih =>
      refine ih _ ?_
      unfold brocastDevice
      split
      · exact clean
      · exact add_clean (add_clean (add_clean (add_clean clean .badge (number 1)) .message (text _)) .device (text _))
          .modele (text _)
  have array : (0 : UInt8) ∉ (iosinfo.foldl (brocastDevice notyMsg) .empty).json.toText := by
    refine array_clean fun item member => ?_
    rw [List.eq_of_mem_replicate member]
    exact object_clean (devices .empty nofun)
  refine object_clean fun member inside => ?_
  rcases Json.mem_membersAdd inside with rfl | kept
  · exact number _
  · cases List.mem_singleton.mp kept
    exact array

theorem pushed_sign (stack : Md5Ctx) (iosinfo : List IosinfoCmd) (notyMsg : Bytes) (tim : Int)
    (fits : ((pushed stack iosinfo notyMsg tim).1 ++ signKey).length < 2^32) :
    (pushed stack iosinfo notyMsg tim).2 =
      hex (digest (hex (digest ((pushed stack iosinfo notyMsg tim).1 ++ signKey)) ++ signKey)) := by
  have again : (hex (digest ((pushed stack iosinfo notyMsg tim).1 ++ signKey)) ++ signKey).length < 2^32 := by
    rw [List.length_append,hex_length,digest_length]
    decide
  have key : (0 : UInt8) ∉ signKey := by decide
  have first : (0 : UInt8) ∉ (pushed stack iosinfo notyMsg tim).1 ++ signKey :=
    fun member => (List.mem_append.mp member).elim (pushed_clean stack iosinfo notyMsg tim) key
  have second : (0 : UInt8) ∉ hex (digest ((pushed stack iosinfo notyMsg tim).1 ++ signKey)) ++ signKey :=
    fun member => (List.mem_append.mp member).elim (hex_clean _) key
  change imGetStringMd5 stack (imGetStringMd5 stack ((pushed stack iosinfo notyMsg tim).1 ++ signKey) [] ++ signKey) [] = _
  rw [imGetStringMd5_appends stack first fits,List.nil_append,imGetStringMd5_appends stack second again,List.nil_append]

-- RFC 1321 for every payload the buffer holds with the key, and every split into updates; MD5
-- agrees with MD5File up to the first NUL, where it stops.
theorem signature_exact :
    (∀ stack iosinfo notyMsg tim, ((pushed stack iosinfo notyMsg tim).1 ++ signKey).length < 1024 →
      (pushed stack iosinfo notyMsg tim).2 =
          hex (digest (hex (digest ((pushed stack iosinfo notyMsg tim).1 ++ signKey)) ++ signKey)) ∧
        (pushed stack iosinfo notyMsg tim).2.length = 32) ∧
    (∀ (context : Md5Ctx) (chunks : List Bytes), (∀ chunk ∈ chunks, chunk.length < 2^29) →
      md5Final (chunks.foldl md5Update (md5Init context)) = digest chunks.flatten) ∧
    ∀ (context stack : Md5Ctx) (file : Bytes), (0 : UInt8) ∉ file → file.length < 2^29 →
      md5File context file = md5 stack file ∧ ∀ rest, md5 stack (file ++ 0 :: rest) = md5File context file := by
  refine ⟨fun stack iosinfo notyMsg tim fits => ?_,fun context chunks few => ?_,fun context stack file clean few => ?_⟩
  · have sign := pushed_sign stack iosinfo notyMsg tim (Nat.lt_trans fits (by decide))
    exact ⟨sign,pushed_length stack iosinfo notyMsg tim⟩
  · exact md5Final_digest context fun chunk member => Nat.lt_trans (few chunk member) (by decide)
  · have cut (str : Bytes) (same : cString str = file) : md5 stack str = md5File context file := by
      rw [md5File_digest,md5_digest stack (by rw [same]; omega),same]
    refine ⟨(cut file (cString_whole clean)).symm,fun rest => cut _ ?_⟩
    rw [cString_clean clean]
    exact List.append_nil file

set_option maxRecDepth 20000 in
theorem signature_pushed : let stack : Md5Ctx := ⟨0,0,⟨0,0,0,0⟩,fun _ => 0⟩
    let push := pushed stack twoDevices (bytes "hi") 0
    push.2 = hex (digest (hex (digest (push.1 ++ signKey)) ++ signKey)) ∧
      md5Final ([[97],[98,99]].foldl md5Update (md5Init stack)) = digest [97,98,99] ∧
      md5File stack [97,98,99] = md5 stack [97,98,99] :=
  ⟨(signature_exact.1 _ twoDevices (bytes "hi") 0 (by decide)).1,signature_exact.2.1 _ [[97],[98,99]] (by decide),
    (signature_exact.2.2 _ _ [97,98,99] (by decide) (by decide)).1⟩

set_option maxRecDepth 20000 in
theorem signature_cut : ¬ ∀ (context stack : Md5Ctx) (file : Bytes), file.length < 2^29 →
    md5File context file = md5 stack file := by
  intro always
  let stack : Md5Ctx := ⟨0,0,⟨0,0,0,0⟩,fun _ => 0⟩
  have agreed := always stack stack [97,0,98] (by decide)
  rw [md5File_digest,md5_digest stack (by decide)] at agreed
  exact absurd agreed (by decide)

end ImAcc
