import Mathlib.Data.List.Infix
import UniRtos.Fota.FtpFota

/-!
What the transmitter callback stores over a whole download. It writes every
chunk whole, so that the store gets the announced bytes only where the chunks
meet the announced end, and it goes on after a chunk that the store has refused.
-/

namespace UniRtos.FtpFota

/-- A download from an offset that is not above the announced size, with a 32-bit offset. -/
structure Download where
  info : FotaFtpInfo
  announced : info.currentDlLen ≠ 0xFFFFFFFF
  below : (info.currentDlOffset : Int) ≤ info.currentDlLen
  offset_lt : info.currentDlOffset < 2 ^ 32

def Download.room (download : Download) : Nat :=
  (download.info.currentDlLen - download.info.currentDlOffset).toNat

def Call.storedBytes : Call → List UInt8
  | .writePacketData data true => data
  | _ => []

def storeOf (calls : List Call) : List UInt8 := calls.flatMap Call.storedBytes

def Chunk.bytes (chunk : Chunk) : List UInt8 := (chunk.ptr.map CObject.bytes).getD []

def streamOf (chunks : List Chunk) : List UInt8 := chunks.flatMap Chunk.bytes

/-- At every point the store has a prefix of the announced bytes, and the offset is not above the
announced size. -/
def Accounted (download : Download) (chunks : List Chunk) : Prop :=
  ∀ before, before <+: chunks →
    storeOf (deliver download.info before).2 <+: (streamOf before).take download.room ∧
      ((deliver download.info before).1.currentDlOffset : Int) ≤ download.info.currentDlLen

/-- `ahead` is what the transport has handed over behind the last stored byte: a chunk that is
stored after refused ones has to bring these bytes again. Nothing is stored any more once the
room is used up, if the 32-bit offset is a number that can meet the end. -/
def MeetsEnd (len : Int) : Nat → List UInt8 → List Chunk → Prop
  | _, _, [] => True
  | room, ahead, chunk :: rest =>
      match chunk.ptr with
      | none => MeetsEnd len room ahead rest
      | some data =>
          if data.length = 0 then MeetsEnd len room ahead rest
          else if room = 0 ∧ len < 2 ^ 32 then True
          else if chunk.writeOk then
            data.length ≤ room ∧ data.bytes <+: ahead ++ data.bytes ∧
              MeetsEnd len (room - data.length) ((ahead ++ data.bytes).drop data.length) rest
          else MeetsEnd len room (ahead ++ data.bytes) rest

/-- The account from a later point on, when `stored` of the bytes `seen` is in the store. -/
def AccountedFrom (download : Download) (info : FotaFtpInfo) (seen stored : List UInt8)
    (chunks : List Chunk) : Prop :=
  ∀ before, before <+: chunks →
    stored ++ storeOf (deliver info before).2 <+: (seen ++ streamOf before).take download.room ∧
      ((deliver info before).1.currentDlOffset : Int) ≤ download.info.currentDlLen

variable {download : Download} {info : FotaFtpInfo} {seen stored ahead : List UInt8}
  {chunk : Chunk} {data : CObject}

theorem accountedFrom_nil :
    AccountedFrom download info seen stored [] ↔
      (stored <+: seen ∧ stored.length ≤ download.room) ∧
        (info.currentDlOffset : Int) ≤ download.info.currentDlLen := by
  simp [AccountedFrom, deliver, storeOf, streamOf, List.prefix_take_iff]

theorem accountedFrom_here {chunks : List Chunk}
    (accounted : AccountedFrom download info seen stored chunks) :
    AccountedFrom download info seen stored [] := by
  intro before begins
  exact accounted before (begins.trans List.nil_prefix)

theorem accountedFrom_cons (rest : List Chunk) :
    AccountedFrom download info seen stored (chunk :: rest) ↔
      AccountedFrom download info seen stored [] ∧
        AccountedFrom download (unirFotaFtpTransmitterCb info chunk).1 (seen ++ chunk.bytes)
          (stored ++ storeOf (unirFotaFtpTransmitterCb info chunk).2.2) rest := by
  have moved (before : List Chunk) :
      storeOf (deliver info (chunk :: before)).2 =
        storeOf (unirFotaFtpTransmitterCb info chunk).2.2 ++
          storeOf (deliver (unirFotaFtpTransmitterCb info chunk).1 before).2 := by
    rw [deliver_cons]
    exact List.flatMap_append
  have longer (before : List Chunk) : streamOf (chunk :: before) = chunk.bytes ++ streamOf before :=
    rfl
  constructor
  · intro accounted
    refine ⟨accountedFrom_here accounted, fun before begins => ?_⟩
    have later := accounted (chunk :: before) ((List.prefix_cons_inj chunk).mpr begins)
    rwa [moved, longer, ← List.append_assoc, ← List.append_assoc] at later
  · rintro ⟨here, later⟩ before begins
    cases before with
    | nil => exact here [] List.nil_prefix
    | cons first before =>
        obtain ⟨rfl, begun⟩ := List.cons_prefix_cons.mp begins
        rw [moved, longer, ← List.append_assoc, ← List.append_assoc]
        exact later before begun

/-- The offset is the position in the file, as far as 32 bits hold it. -/
structure Reached (download : Download) (info : FotaFtpInfo) (stored : List UInt8) : Prop where
  length : info.currentDlLen = download.info.currentDlLen
  offset : info.currentDlOffset = wrap32 (download.info.currentDlOffset + stored.length)
  within : stored.length ≤ download.room

theorem wrap32_le (value : Nat) : wrap32 value ≤ value := Nat.mod_le _ _

theorem reached_start (download : Download) : Reached download download.info [] where
  length := rfl
  offset := (wrap32_of_lt download.offset_lt).symm
  within := Nat.zero_le _

theorem Reached.announced (reached : Reached download info stored) :
    info.currentDlLen ≠ 0xFFFFFFFF := by
  rw [reached.length]
  exact download.announced

theorem Reached.offset_le (reached : Reached download info stored) :
    (info.currentDlOffset : Int) ≤ download.info.currentDlLen := by
  have wrapped := wrap32_le (download.info.currentDlOffset + stored.length)
  have within := reached.within
  have below := download.below
  unfold Download.room at within
  rw [reached.offset]
  omega

theorem Reached.here (reached : Reached download info stored) :
    AccountedFrom download info (stored ++ ahead) stored [] :=
  accountedFrom_nil.mpr ⟨⟨List.prefix_append _ _, reached.within⟩, reached.offset_le⟩

theorem Reached.meets_iff (reached : Reached download info stored) :
    info.currentDlLen = info.currentDlOffset ↔
      download.room - stored.length = 0 ∧ download.info.currentDlLen < 2 ^ 32 := by
  have within := reached.within
  have below := download.below
  unfold Download.room at within ⊢
  rw [reached.length, reached.offset]
  have wrapped := wrap32_le (download.info.currentDlOffset + stored.length)
  have small : wrap32 (download.info.currentDlOffset + stored.length) < 2 ^ 32 :=
    Nat.mod_lt _ (by decide)
  constructor
  · intro met
    omega
  · rintro ⟨used, number⟩
    rw [wrap32_of_lt (by omega)]
    omega

theorem transmitterCb_null (info : FotaFtpInfo) (null : chunk.ptr = none) :
    unirFotaFtpTransmitterCb info chunk = ({ info with errorCode := -1 }, 0, []) := by
  simp only [unirFotaFtpTransmitterCb, null]

theorem transmitterCb_data (reached : Reached download info stored)
    (ptr : chunk.ptr = some data) :
    unirFotaFtpTransmitterCb info chunk =
      if data.length = 0 ∨ info.currentDlLen = info.currentDlOffset then
        ({ info with errorCode := -2 }, 0, [])
      else if chunk.writeOk then
        ({ info with
            currentDlOffset := wrap32 (info.currentDlOffset + data.length)
            errorCode := 0 },
          data.length, [.writePacketData data.bytes true])
      else (info, 0, [.writePacketData data.bytes false]) := by
  have offset := reached.offset_le
  have wanted : min (data.length : Int) (info.currentDlLen - info.currentDlOffset) = 0 ↔
      data.length = 0 ∨ info.currentDlLen = info.currentDlOffset := by
    rw [reached.length]
    omega
  simp only [unirFotaFtpTransmitterCb, ptr, reached.announced, ne_eq, not_false_eq_true, if_true,
    toInt32_of_small data.length_lt, wanted]

theorem accountedFrom_unstored (reached : Reached download info stored) (ahead : List UInt8)
    (rest : List Chunk)
    (length : (unirFotaFtpTransmitterCb info chunk).1.currentDlLen = info.currentDlLen)
    (offset : (unirFotaFtpTransmitterCb info chunk).1.currentDlOffset = info.currentDlOffset)
    (silent : storeOf (unirFotaFtpTransmitterCb info chunk).2.2 = []) :
    Reached download (unirFotaFtpTransmitterCb info chunk).1 stored ∧
      (AccountedFrom download info (stored ++ ahead) stored (chunk :: rest) ↔
        AccountedFrom download (unirFotaFtpTransmitterCb info chunk).1
          (stored ++ (ahead ++ chunk.bytes)) stored rest) := by
  constructor
  · exact ⟨length.trans reached.length, offset.trans reached.offset, reached.within⟩
  · rw [accountedFrom_cons, silent, List.append_nil, List.append_assoc]
    exact and_iff_right reached.here

theorem accountedFrom_full (reached : Reached download info stored)
    (met : info.currentDlLen = info.currentDlOffset) (chunks : List Chunk) :
    AccountedFrom download info (stored ++ ahead) stored chunks := by
  induction chunks generalizing info ahead with
  | nil => exact reached.here
  | cons chunk rest ih =>
      obtain ⟨silent, length, offset⟩ := transmitterCb_full info chunk reached.announced met
      have nothing : storeOf (unirFotaFtpTransmitterCb info chunk).2.2 = [] := by
        rw [silent]
        rfl
      obtain ⟨still, same⟩ := accountedFrom_unstored reached ahead rest length offset nothing
      rw [same]
      refine ih still ?_
      rw [length, offset]
      exact met

/-- A chunk that the store takes keeps the account if it fits the room and brings the bytes that
follow the store in the stream. -/
theorem accountedFrom_stored (reached : Reached download info stored) (ahead : List UInt8)
    (ptr : chunk.ptr = some data) (some : data.length ≠ 0) (ok : chunk.writeOk = true)
    (unmet : ¬info.currentDlLen = info.currentDlOffset) (rest : List Chunk) :
    (data.length ≤ download.room - stored.length →
        Reached download (unirFotaFtpTransmitterCb info chunk).1 (stored ++ data.bytes)) ∧
      (AccountedFrom download info (stored ++ ahead) stored (chunk :: rest) ↔
        data.length ≤ download.room - stored.length ∧ data.bytes <+: ahead ++ data.bytes ∧
          AccountedFrom download (unirFotaFtpTransmitterCb info chunk).1
            ((stored ++ data.bytes) ++ (ahead ++ data.bytes).drop data.length)
            (stored ++ data.bytes) rest) := by
  have called := transmitterCb_data reached ptr
  rw [if_neg (not_or.mpr ⟨some, unmet⟩), if_pos ok] at called
  have bytes : chunk.bytes = data.bytes := by simp [Chunk.bytes, ptr]
  have packet : storeOf [.writePacketData data.bytes true] = data.bytes := List.append_nil _
  have within := reached.within
  have more : (stored ++ data.bytes).length = stored.length + data.length := List.length_append
  constructor
  · intro fits
    rw [called]
    refine ⟨reached.length, ?_, by omega⟩
    change wrap32 (info.currentDlOffset + data.length) = _
    rw [reached.offset, more, ← Nat.add_assoc]
    exact Nat.mod_add_mod ..
  · rw [accountedFrom_cons, called, bytes, packet, List.append_assoc, and_iff_right reached.here]
    have again (begins : data.bytes <+: ahead ++ data.bytes) :
        (stored ++ data.bytes) ++ (ahead ++ data.bytes).drop data.length =
          stored ++ (ahead ++ data.bytes) := by
      rw [List.append_assoc]
      exact congrArg _ (List.prefix_append_drop begins).symm
    constructor
    · intro later
      obtain ⟨⟨begins, bound⟩, -⟩ := accountedFrom_nil.mp (accountedFrom_here later)
      have follows := (List.prefix_append_right_inj stored).mp begins
      rw [again follows]
      exact ⟨by omega, follows, later⟩
    · rintro ⟨-, follows, later⟩
      rwa [again follows] at later

theorem accountedFrom_iff (reached : Reached download info stored) (ahead : List UInt8)
    (chunks : List Chunk) :
    AccountedFrom download info (stored ++ ahead) stored chunks ↔
      MeetsEnd download.info.currentDlLen (download.room - stored.length) ahead chunks := by
  induction chunks generalizing info stored ahead with
  | nil => exact iff_of_true reached.here trivial
  | cons chunk rest ih =>
      cases ptr : chunk.ptr with
      | none =>
          have called := transmitterCb_null info ptr
          have bytes : chunk.bytes = [] := by simp [Chunk.bytes, ptr]
          obtain ⟨still, same⟩ := accountedFrom_unstored reached ahead rest
            (by rw [called]) (by rw [called]) (by rw [called]; rfl)
          rw [same, ih still, bytes, List.append_nil]
          simp only [MeetsEnd, ptr]
      | some data =>
          have called := transmitterCb_data reached ptr
          have bytes : chunk.bytes = data.bytes := by simp [Chunk.bytes, ptr]
          simp only [MeetsEnd, ptr]
          by_cases empty : data.length = 0
          · rw [if_pos (Or.inl empty)] at called
            obtain ⟨still, same⟩ := accountedFrom_unstored reached ahead rest
              (by rw [called]) (by rw [called]) (by rw [called]; rfl)
            have none : data.bytes = [] := List.eq_nil_of_length_eq_zero empty
            rw [same, ih still, bytes, none, List.append_nil, if_pos empty]
          · rw [if_neg empty]
            by_cases met : info.currentDlLen = info.currentDlOffset
            · rw [if_pos (reached.meets_iff.mp met)]
              exact iff_of_true (accountedFrom_full reached met _) trivial
            · rw [if_neg (mt reached.meets_iff.mpr met)]
              cases ok : chunk.writeOk with
              | false =>
                  rw [if_neg (not_or.mpr ⟨empty, met⟩), ok, if_neg Bool.false_ne_true] at called
                  obtain ⟨still, same⟩ := accountedFrom_unstored reached ahead rest
                    (by rw [called]) (by rw [called]) (by rw [called]; rfl)
                  rw [same, ih still, bytes, if_neg Bool.false_ne_true]
              | true =>
                  obtain ⟨further, same⟩ :=
                    accountedFrom_stored reached ahead ptr empty ok met rest
                  rw [same, if_pos rfl]
                  refine and_congr_right fun fits => and_congr_right fun _ => ?_
                  rw [ih (further fits), List.length_append, Nat.sub_add_eq]
                  rfl

theorem ftpFota_accounted_iff (download : Download) (chunks : List Chunk) :
    Accounted download chunks ↔
      MeetsEnd download.info.currentDlLen download.room [] chunks :=
  accountedFrom_iff (reached_start download) [] chunks

def straddled : Download where
  info := { currentDlOffset := 0, currentDlLen := 3, errorCode := 0, fotaPtr := true }
  announced := by decide
  below := by decide
  offset_lt := by decide

theorem ftpFota_straddled_passes :
    ¬Accounted straddled [{ ptr := some ⟨[1, 2, 3, 4, 5], by decide⟩, writeOk := true }] := by
  intro accounted
  have bound := (accounted _ (List.prefix_refl _)).2
  exact absurd bound (by decide)

end UniRtos.FtpFota
