import DeviceTester.CoapClient
import DeviceTester.Framework.Records

/-! # The path of a CoAP request

  The first part of `CoapClient::Impl::sendRequest` has `coap_split_path` write
  the segments of the path as options into a buffer of 100 bytes, and goes
  through what has been written, as many times as the answer says. The capacity
  it gives to the splitter is the value that `buflen` happens to have, and the
  answer is not looked at before it counts the loop down: after an error the
  loop does not end, and segments that were left out are missing in the request.

  So the path is encoded safely exactly when `buflen` is no more than 100 by
  chance and the splitter has written all segments (`path_encoded_iff`).

  libcoap is not part of the repository. How options are written and read, how
  the splitter answers and what the segments of a path are is left open as far
  as the properties do not need it.
-/

namespace DeviceTester

open LTS

namespace CoapClient

open Records

/-! ### Segments and options -/

/-- The value of an option, which is no longer than its length field can say. -/
abbrev Segment := { s : List UInt8 // s.length < 65805 }

/-- How Uri-Path options are written, and read by `coap_opt_length`,
    `coap_opt_value` and `coap_opt_size`. -/
abbrev OptionFormat := Format UInt8 Segment

/-- What `coap_split_path` writes and returns. -/
inductive SplitAnswer where
  /-- The segments written, of which the number is returned. -/
  | written (segments : List Segment)
  /-- `-1 - code` is returned. -/
  | error (code : Nat) (bytes : List UInt8)

namespace SplitAnswer

def result : SplitAnswer → Int
  | written segments => segments.length
  | error code _ => -1 - code

def bytes (fmt : OptionFormat) : SplitAnswer → List UInt8
  | written segments => fmt.encodeAll segments
  | error _ bytes => bytes

end SplitAnswer

/-- `coap_split_path`, which writes no more than the capacity it is given. -/
structure Splitter (fmt : OptionFormat) where
  coap_split_path : List UInt8 → UInt64 → SplitAnswer
  within : ∀ path buflen, ((coap_split_path path buflen).bytes fmt).length ≤ buflen.toNat

/-! ### `sendRequest` with its path -/

/-- The loop `while (res--)`, with what has been written from `buf` on. `none`
    when it reads beyond that. -/
def insertOptions (fmt : OptionFormat) (res : Int) (buf : List UInt8) : Option (List Segment) :=
  if res = 0 then some []
  else
    match h : fmt.read buf with
    | some x => (insertOptions fmt (res - 1) (buf.drop x.2)).map fun options => x.1 :: options
    | none => none
termination_by buf.length
decreasing_by
  have hsize := fmt.read_size buf x h
  rw [List.length_drop]
  omega

/-- The list of options that is made of the path. `buflen` is not initialised. -/
def optlist (fmt : OptionFormat) (splitter : Splitter fmt) (path : List UInt8) (buflen : UInt64) :
    Option (List Segment) :=
  let answer := splitter.coap_split_path path buflen
  insertOptions fmt answer.result (answer.bytes fmt)

/-- The size of the local buffer. -/
def BUFSIZE : Nat := 100

/-- What the rest of `sendRequest` is called with. -/
structure Arguments where
  session : Nat
  method : Method
  id : RequestId
  data : List UInt8
  token : Token
  allocation : Allocation
  token_added : Bool

/-- All of `sendRequest`, with the options of the request that is sent. -/
def Impl.sendRequestTo (s : Impl) (fmt : OptionFormat) (splitter : Splitter fmt)
    (path : List UInt8) (buflen : UInt64) (a : Arguments) : Option (Impl × List Segment) :=
  (optlist fmt splitter path buflen).map fun options =>
    (s.sendRequest a.session a.method a.id a.data a.token a.allocation a.token_added, options)

/-! ### The property -/

/-- **(U)** The splitter may fill the buffer and no more, the loop goes around
    as often as the splitter has returned and reads what it has written, and the
    request has all segments of the path or is not sent. -/
structure PathEncoded (fmt : OptionFormat) (splitter : Splitter fmt)
    (segments : List UInt8 → List Segment) (s : Impl) (path : List UInt8) (buflen : UInt64)
    (a : Arguments) : Prop where
  capacity : buflen.toNat ≤ BUFSIZE
  iterations : ∃ options, optlist fmt splitter path buflen = some options ∧
    (options.length : Int) = max (splitter.coap_split_path path buflen).result 0
  whole : ∀ s' options, s.sendRequestTo fmt splitter path buflen a = some (s', options) →
    options = segments path ∨ s'.sent = s.sent

/-! ### The loop -/

variable {fmt : OptionFormat}

theorem insertOptions_zero (buf : List UInt8) : insertOptions fmt 0 buf = some [] := by
  rw [insertOptions, if_pos rfl]

theorem insertOptions_of_read {res : Int} {buf : List UInt8} {x : Segment × Nat} (hres : res ≠ 0)
    (h : fmt.read buf = some x) :
    insertOptions fmt res buf =
      (insertOptions fmt (res - 1) (buf.drop x.2)).map fun options => x.1 :: options := by
  rw [insertOptions, if_neg hres]
  split
  · next y hy =>
    rw [h, Option.some.injEq] at hy
    rw [hy]
  · next hnone =>
    rw [h] at hnone
    cases hnone

theorem insertOptions_of_end {res : Int} {buf : List UInt8} (hres : res ≠ 0)
    (h : fmt.read buf = none) : insertOptions fmt res buf = none := by
  rw [insertOptions, if_neg hres]
  split
  · next y hy =>
    rw [h] at hy
    cases hy
  · rfl

/-- Counting down from a number that is not negative. -/
theorem insertOptions_eq_readMany (n : Nat) (buf : List UInt8) :
    insertOptions fmt n buf = fmt.readMany n buf := by
  induction n generalizing buf with
  | zero => exact insertOptions_zero buf
  | succ n ih =>
    have hres : ((n + 1 : Nat) : Int) ≠ 0 := by omega
    have hpred : ((n + 1 : Nat) : Int) - 1 = n := by omega
    cases hread : fmt.read buf with
    | none =>
      rw [insertOptions_of_end hres hread, Format.readMany, hread]
      rfl
    | some x =>
      rw [insertOptions_of_read hres hread, hpred, ih, Format.readMany, hread]
      rfl

/-- Counting down from a negative number never ends. -/
theorem insertOptions_eq_none {res : Int} (hres : res < 0) (buf : List UInt8) :
    insertOptions fmt res buf = none := by
  -- each option takes at least a byte, so the loop reads to the end of what is
  -- written, with a count that is more and more negative
  induction hlen : buf.length using Nat.strongRecOn generalizing res buf with
  | ind len ih =>
    have hne : res ≠ 0 := by omega
    cases hread : fmt.read buf with
    | none => exact insertOptions_of_end hne hread
    | some x =>
      obtain ⟨hpos, hle⟩ := fmt.read_size buf x hread
      have hshorter : (buf.drop x.2).length < len := by
        rw [List.length_drop]
        omega
      rw [insertOptions_of_read hne hread, ih _ hshorter (by omega) _ rfl]
      rfl

/-- The options are what the splitter has written. -/
theorem insertOptions_written (segments : List Segment) :
    insertOptions fmt (SplitAnswer.written segments).result
      ((SplitAnswer.written segments).bytes fmt) = some segments := by
  have hread := fmt.readMany_encodeAll segments []
  rw [List.append_nil] at hread
  rw [SplitAnswer.result, insertOptions_eq_readMany]
  exact hread

/-- After an error the loop runs away. -/
theorem insertOptions_error (code : Nat) (bytes : List UInt8) :
    insertOptions fmt (SplitAnswer.error code bytes).result
      ((SplitAnswer.error code bytes).bytes fmt) = none := by
  apply insertOptions_eq_none
  show -1 - (code : Int) < 0
  omega

/-! ### What is sent -/

/-- Every call that gets past the loop sends one request. -/
theorem Impl.sendRequest_sent (s : Impl) (a : Arguments) :
    ∃ pdu, (s.sendRequest a.session a.method a.id a.data a.token a.allocation a.token_added).sent =
      s.sent ++ [pdu] := by
  unfold Impl.sendRequest
  by_cases hdata : a.data.length > 0
  · simp only [if_pos hdata]
    exact ⟨_, rfl⟩
  · simp only [if_neg hdata]
    exact ⟨_, rfl⟩

/-- The options are those of the request, so the splitter has written all
    segments. -/
theorem PathEncoded.all_written {splitter : Splitter fmt} {segments : List UInt8 → List Segment}
    {s : Impl} {path : List UInt8} {buflen : UInt64} {a : Arguments}
    (h : PathEncoded fmt splitter segments s path buflen a) :
    splitter.coap_split_path path buflen = .written (segments path) := by
  obtain ⟨options, hoptions, _⟩ := h.iterations
  have hall : options = segments path := by
    -- a request is sent, which leaves only the first of the two
    obtain ⟨pdu, hsent⟩ := s.sendRequest_sent a
    have hwhole := h.whole _ options (by rw [Impl.sendRequestTo, hoptions]; rfl)
    rw [hsent] at hwhole
    exact hwhole.resolve_right (by simp)
  unfold optlist at hoptions
  cases hanswer : splitter.coap_split_path path buflen with
  | written written =>
    rw [hanswer] at hoptions
    have heq := (insertOptions_written written).symm.trans hoptions
    rw [← hall, Option.some.inj heq]
  | error code bytes =>
    -- the loop would have ended
    rw [hanswer] at hoptions
    have heq := (insertOptions_error code bytes).symm.trans hoptions
    cases heq

/-- The path of a request is encoded safely exactly when the uninitialised
    capacity is no more than the buffer holds, and the splitter writes all
    segments of the path. -/
theorem path_encoded_iff (splitter : Splitter fmt) (segments : List UInt8 → List Segment)
    (s : Impl) (path : List UInt8) (buflen : UInt64) (a : Arguments) :
    PathEncoded fmt splitter segments s path buflen a ↔
      buflen.toNat ≤ BUFSIZE ∧
        splitter.coap_split_path path buflen = .written (segments path) := by
  constructor
  · intro h
    exact ⟨h.capacity, h.all_written⟩
  · intro h
    obtain ⟨hcapacity, hanswer⟩ := h
    have hoptions : optlist fmt splitter path buflen = some (segments path) := by
      unfold optlist
      rw [hanswer]
      exact insertOptions_written (segments path)
    refine ⟨hcapacity, ⟨segments path, hoptions, ?_⟩, ?_⟩
    · rw [hanswer]
      show ((segments path).length : Int) = max ((segments path).length : Int) 0
      omega
    · intro s' options hsent
      unfold Impl.sendRequestTo at hsent
      rw [hoptions] at hsent
      left
      exact (Prod.mk.inj (Option.some.inj hsent)).2.symm

/-! ### Options as they are written on the wire

    The option number is not written, as all options have the same. The length
    is in the first byte, or in one or two bytes after it. -/

def writeLength (len : Nat) : List UInt8 :=
  if len < 13 then [UInt8.ofNat len]
  else if len < 269 then [13, UInt8.ofNat (len - 13)]
  else [14, UInt8.ofNat ((len - 269) / 256), UInt8.ofNat ((len - 269) % 256)]

/-- The length, and how many bytes it takes. -/
def readLength : List UInt8 → Option (Nat × Nat)
  | [] => none
  | b :: rest =>
      if b < 13 then some (b.toNat, 1)
      else if b = 13 then rest.head?.map fun ext => (ext.toNat + 13, 2)
      else if b = 14 then
        match rest with
        | hi :: lo :: _ => some (hi.toNat * 256 + lo.toNat + 269, 3)
        | _ => none
      else none

def readOption (bytes : List UInt8) : Option (Segment × Nat) :=
  (readLength bytes).bind fun x =>
    if h : x.1 < 65805 ∧ x.2 + x.1 ≤ bytes.length then
      some (⟨(bytes.drop x.2).take x.1, by rw [List.length_take]; omega⟩, x.2 + x.1)
    else none

theorem readLength_writeLength {len : Nat} (h : len < 65805) (rest : List UInt8) :
    readLength (writeLength len ++ rest) = some (len, (writeLength len).length) := by
  unfold writeLength
  by_cases hshort : len < 13
  · have hlt : UInt8.ofNat len < 13 := by
      rw [UInt8.lt_iff_toNat_lt, UInt8.toNat_ofNat']
      show len % 256 < 13
      omega
    have hlen : (UInt8.ofNat len).toNat = len := by
      rw [UInt8.toNat_ofNat']
      omega
    simp [readLength, hshort, hlt, hlen]
  · by_cases hmiddle : len < 269
    · have hext : (UInt8.ofNat (len - 13)).toNat = len - 13 := by
        rw [UInt8.toNat_ofNat']
        omega
      have hsum : len - 13 + 13 = len := by omega
      simp [readLength, hshort, hmiddle, hext, hsum]
    · have hhi : (UInt8.ofNat ((len - 269) / 256)).toNat = (len - 269) / 256 := by
        rw [UInt8.toNat_ofNat']
        omega
      have hlo : (UInt8.ofNat ((len - 269) % 256)).toNat = (len - 269) % 256 := by
        rw [UInt8.toNat_ofNat']
        omega
      have hsum : (len - 269) / 256 * 256 + (len - 269) % 256 + 269 = len := by omega
      simp [readLength, hshort, hmiddle, hhi, hlo, hsum]

theorem readLength_pos {bytes : List UInt8} {x : Nat × Nat} (h : readLength bytes = some x) :
    0 < x.2 := by
  unfold readLength at h
  split at h
  · cases h
  · split at h
    · cases h
      omega
    · split at h
      · obtain ⟨ext, _, rfl⟩ := Option.map_eq_some_iff.mp h
        omega
      · split at h
        · split at h
          · cases h
            omega
          · cases h
        · cases h

def wireFormat : OptionFormat where
  encode := fun seg => writeLength seg.val.length ++ seg.val
  read := readOption
  read_encode := by
    intro seg rest
    have hlen := readLength_writeLength seg.property (seg.val ++ rest)
    rw [← List.append_assoc] at hlen
    unfold readOption
    rw [hlen, Option.bind_some]
    simp [seg.property]
  read_size := by
    intro bytes x h
    obtain ⟨y, hy, hx⟩ := Option.bind_eq_some_iff.mp h
    have hpos := readLength_pos hy
    split at hx
    · next hfits =>
      cases hx
      exact ⟨Nat.add_pos_left hpos _, hfits.2⟩
    · cases hx

/-! ### A splitter -/

/-- The segments between the slashes. -/
def pathSegments (path : List UInt8) : List Segment :=
  (path.splitOn 0x2f).filterMap fun s => if h : s.length < 65805 then some ⟨s, h⟩ else none

/-- The segments that still have room. The others are left out. -/
def fitting (fmt : OptionFormat) : Nat → List Segment → List Segment
  | _, [] => []
  | room, seg :: rest =>
      if (fmt.encode seg).length ≤ room then
        seg :: fitting fmt (room - (fmt.encode seg).length) rest
      else fitting fmt room rest

theorem length_fitting (room : Nat) (segments : List Segment) :
    (fmt.encodeAll (fitting fmt room segments)).length ≤ room := by
  induction segments generalizing room with
  | nil => exact Nat.zero_le _
  | cons seg rest ih =>
    unfold fitting
    by_cases hroom : (fmt.encode seg).length ≤ room
    · have hrest := ih (room - (fmt.encode seg).length)
      rw [if_pos hroom, Format.encodeAll, List.flatMap_cons, List.length_append]
      unfold Format.encodeAll at hrest
      omega
    · rw [if_neg hroom]
      exact ih room

/-- A splitter that writes the segments for which there is room. -/
def fittingSplitter (fmt : OptionFormat) : Splitter fmt where
  coap_split_path := fun path buflen => .written (fitting fmt buflen.toNat (pathSegments path))
  within := fun path buflen => length_fitting buflen.toNat (pathSegments path)

/-- `a/b` -/
def pathAB : List UInt8 := [0x61, 0x2f, 0x62]

def getRequest : Arguments where
  session := 0
  method := .m_get
  id := 7
  data := []
  token := [1]
  allocation := .granted
  token_added := true

/-- With room for one segment only, the request for `a/b` goes to `a`. A
    capacity of 1000 bytes is beyond the buffer. -/
theorem path_not_encoded :
    (optlist wireFormat (fittingSplitter wireFormat) pathAB 3 = some [⟨[0x61], by decide⟩] ∧
      ¬PathEncoded wireFormat (fittingSplitter wireFormat) pathSegments
        (Impl.new false (.found false true)) pathAB 3 getRequest) ∧
    ¬PathEncoded wireFormat (fittingSplitter wireFormat) pathSegments
      (Impl.new false (.found false true)) pathAB 1000 getRequest := by
  have hwritten : (fittingSplitter wireFormat).coap_split_path pathAB 3 =
      .written [⟨[0x61], by decide⟩] := rfl
  refine ⟨⟨?_, ?_⟩, ?_⟩
  · unfold optlist
    rw [hwritten]
    exact insertOptions_written _
  · intro h
    have hall := h.all_written
    rw [hwritten, SplitAnswer.written.injEq] at hall
    have hlen := congrArg List.length hall
    exact absurd hlen (by decide)
  · intro h
    exact absurd h.capacity (by decide)

end CoapClient

end DeviceTester
