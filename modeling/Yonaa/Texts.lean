import Yonaa.Equality
import Yonaa.Decimal

/-! The text forms of an endpoint, and what can be read back from them. -/
namespace Yonaa

def AF_INET : Nat := 2
def AF_INET6 : Nat := 10
def INET_ADDRSTRLEN : Nat := 16
def INET6_ADDRSTRLEN : Nat := 46

/-- An unsigned number in the memory of a little-endian host. -/
def hostOrder (bytes : List Byte) : Nat := bytes.foldr (fun b n => b.toNat+256*n) 0

def ntohs (n : Nat) : Nat := n%256*256+n/256%256

def dot : Byte := 46
def colon : Byte := 58
def openBracket : Byte := 91
def closeBracket : Byte := 93

def dotted (bytes : List Byte) : List Byte := Decimal.listText dot (bytes.map (·.toNat))

/-- `inet_ntop` with AF_INET, from the four bytes at the given address: the text and a zero
byte, if there is room for them. -/
def inetNtop (src : List Byte) (dst : Buffer) : Buffer :=
  if (dotted src).length < dst.size then dst.overwrite (dotted src++[0]) else dst

def ascii (s : String) : List Byte := s.toList.map Char.toUInt8

namespace Endpoint

/-- n bytes of the storage from an offset; nothing is known of bytes outside of it. -/
def bytesAt (e : Endpoint) (offset n : Nat) : Option (List Byte) :=
  if offset+n ≤ e.storage.size then some ((e.storage.data.drop offset).take n) else none

def family (e : Endpoint) : Option Nat := (e.bytesAt 0 2).map hostOrder

/-- `get_in_addr`: the offset of `sin_addr` or `sin6_addr`. -/
def getInAddr (e : Endpoint) : Option Nat := do
  if (← e.family) = AF_INET then return 4 else return 8

def getPort (e : Endpoint) : Option Nat := (e.bytesAt 2 2).map fun b => ntohs (hostOrder b)

def addr (e : Endpoint) : Option (List Byte) := do
  let src ← e.bytesAt (← e.getInAddr) 4
  let buffer := inetNtop src (Buffer.ofSize INET6_ADDRSTRLEN)
  let family ← e.family
  if family = AF_INET then return buffer.data.take INET_ADDRSTRLEN
  else if family = AF_INET6 then return buffer.data.take INET6_ADDRSTRLEN
  else return ascii "INVALID"

def port (e : Endpoint) : Option (List Byte) := do
  let family ← e.family
  if family = AF_INET ∨ family = AF_INET6 then return Decimal.text (← e.getPort)
  else return ascii "INVALID"

def str (e : Endpoint) : Option (List Byte) := do
  let family ← e.family
  if family = AF_INET then return (← e.addr)++[colon]++(← e.port)
  else if family = AF_INET6 then
    return [openBracket]++(← e.addr)++[closeBracket,colon]++(← e.port)
  else return ascii "INVALID:INVALID"

end Endpoint

/-- What a well-formed `sockaddr_in` or `sockaddr_in6` says. -/
inductive SocketAddress where
  | inet (address : List.Vector Byte 4) (port : UInt16)
  | inet6 (address : List.Vector Byte 16) (port : UInt16)
deriving DecidableEq

namespace SocketAddress

def portBytes (port : UInt16) : List Byte := [(port >>> 8).toUInt8,port.toUInt8]

/-- The storage of an endpoint is this socket address, maybe with bytes behind it. -/
def In (e : Endpoint) : SocketAddress → Prop
  | .inet address port => ∃ rest, 8 ≤ rest.length ∧
      e.storage.data = [2,0]++portBytes port++address.toList++rest
  | .inet6 address port => ∃ flowinfo rest, flowinfo.length = 4 ∧ 4 ≤ rest.length ∧
      e.storage.data = [10,0]++portBytes port++flowinfo++address.toList++rest

def bytes : SocketAddress → List Byte
  | .inet address port => [2,0]++portBytes port++address.toList++List.replicate 8 0
  | .inet6 address port => [10,0]++portBytes port++List.replicate 4 0++address.toList++
      List.replicate 4 0

def port : SocketAddress → UInt16
  | .inet _ port | .inet6 _ port => port

def familyBytes : SocketAddress → List Byte
  | .inet _ _ => [2,0]
  | .inet6 _ _ => [10,0]

def shown : SocketAddress → List Byte
  | .inet address _ => address.toList
  | .inet6 address _ => address.toList.take 4

def padded (n : Nat) (bytes : List Byte) : List Byte :=
  dotted bytes++List.replicate (n-(dotted bytes).length) 0

def text (x : SocketAddress) : List Byte :=
  match x with
  | .inet _ port => padded INET_ADDRSTRLEN x.shown++[colon]++Decimal.text port.toNat
  | .inet6 _ port => [openBracket]++padded INET6_ADDRSTRLEN x.shown++[closeBracket,colon]++
      Decimal.text port.toNat

theorem ntohs_portBytes (port : UInt16) : ntohs (hostOrder (portBytes port)) = port.toNat := by
  have hlt := port.toNat_lt
  have hhigh : ((port >>> 8).toUInt8).toNat = port.toNat/256 := by
    rw [UInt16.toNat_toUInt8,UInt16.toNat_shiftRight]
    change port.toNat >>> 8 % 2^8 = _
    rw [Nat.shiftRight_eq_div_pow]
    omega
  have hlow : port.toUInt8.toNat = port.toNat%256 := UInt16.toNat_toUInt8 port
  have horder : hostOrder (portBytes port) = port.toNat/256+256*(port.toNat%256) := by
    simp only [portBytes,hostOrder,List.foldr_cons,List.foldr_nil,hhigh,hlow,Nat.mul_zero,
      Nat.add_zero]
  have hmod : (port.toNat/256+256*(port.toNat%256))%256 = port.toNat/256 := by omega
  have hdiv : (port.toNat/256+256*(port.toNat%256))/256 = port.toNat%256 := by omega
  rw [ntohs,horder,hmod,hdiv]
  omega

theorem length_shown (x : SocketAddress) : x.shown.length = 4 := by
  cases x with
  | inet address port => exact address.2
  | inet6 address port => exact List.length_take_of_le (by rw [address.toList_length]; decide)

theorem length_dotted_lt {bytes : List Byte} (h : bytes.length = 4) :
    (dotted bytes).length < 16 := by
  have hne : bytes.map (·.toNat) ≠ [] := by
    intro hnil
    rw [List.map_eq_nil_iff.mp hnil] at h
    cases h
  have hsmall : ∀ n ∈ bytes.map (·.toNat), n < 10^3 := by
    intro n hn
    obtain ⟨b,-,rfl⟩ := List.mem_map.mp hn
    exact b.toNat_lt.trans (by decide)
  have hlt : (dotted bytes).length < (3+1)*(bytes.map (·.toNat)).length :=
    Decimal.length_listText_lt (by decide) hne hsmall
  rwa [List.length_map,h] at hlt

theorem data_inetNtop {src : List Byte} (h : src.length = 4) :
    (inetNtop src (Buffer.ofSize INET6_ADDRSTRLEN)).data = padded INET6_ADDRSTRLEN src := by
  have hlength := length_dotted_lt h
  have hsize : (Buffer.ofSize INET6_ADDRSTRLEN).data = List.replicate 46 0 :=
    Buffer.data_ofSize (by decide)
  have hroom : (dotted src).length < (Buffer.ofSize INET6_ADDRSTRLEN).size := by
    rw [Buffer.size,hsize,List.length_replicate]
    omega
  have hlist : dotted src++[0]++(List.replicate 46 0).drop (dotted src++[0]).length =
      padded INET6_ADDRSTRLEN src := by
    rw [List.drop_replicate,List.append_assoc,List.singleton_append,← List.replicate_succ,padded,
      List.length_append,List.length_singleton]
    congr 2
    change 46-((dotted src).length+1)+1 = 46-(dotted src).length
    omega
  have hfits : (padded INET6_ADDRSTRLEN src).length < 2^64 := by
    rw [padded,List.length_append,List.length_replicate]
    change (dotted src).length+(46-(dotted src).length) < _
    omega
  rw [inetNtop,if_pos hroom,Buffer.overwrite,hsize,hlist]
  exact Buffer.data_ofList hfits

theorem take_padded {bytes : List Byte} (h : bytes.length = 4) {n m : Nat} (hn : 16 ≤ n)
    (hnm : n ≤ m) : (padded m bytes).take n = padded n bytes := by
  have hlength := length_dotted_lt h
  rw [padded,List.take_append,List.take_of_length_le (by omega),List.take_replicate,padded,
    Nat.min_eq_left (by omega)]

theorem in_native (protocol : Int) (x : SocketAddress) :
    In (.fromNativeAddress protocol x.bytes) x := by
  cases x with
  | inet address port =>
    refine ⟨List.replicate 8 0,Nat.le_refl 8,Endpoint.storage_fromNativeAddress protocol ?_⟩
    have hlength : (bytes (.inet address port)).length = 16 := by
      simp [bytes,portBytes]
    rw [hlength]
    decide
  | inet6 address port =>
    refine ⟨List.replicate 4 0,List.replicate 4 0,rfl,Nat.le_refl 4,
      Endpoint.storage_fromNativeAddress protocol ?_⟩
    have hlength : (bytes (.inet6 address port)).length = 28 := by
      simp [bytes,portBytes]
    rw [hlength]
    decide

theorem bytesAt_data {e : Endpoint} {front bytes back : List Byte}
    (h : e.storage.data = front++bytes++back) :
    e.bytesAt front.length bytes.length = some bytes := by
  have hsize : front.length+bytes.length ≤ e.storage.size := by
    rw [Buffer.size,h,List.length_append,List.length_append]
    omega
  rw [Endpoint.bytesAt,if_pos hsize,h,List.append_assoc,List.drop_left,List.take_left]

section In
variable {e : Endpoint} {x : SocketAddress} (h : In e x)
include h

theorem In.front : ∃ rest, e.storage.data = x.familyBytes++portBytes x.port++rest := by
  cases x with
  | inet address port =>
    obtain ⟨rest,-,hdata⟩ := h
    exact ⟨address.toList++rest,hdata.trans (List.append_assoc _ _ _)⟩
  | inet6 address port =>
    obtain ⟨flowinfo,rest,-,-,hdata⟩ := h
    rw [List.append_assoc,List.append_assoc] at hdata
    exact ⟨flowinfo++(address.toList++rest),hdata⟩

theorem In.family : e.family = some (match x with
    | .inet _ _ => AF_INET
    | .inet6 _ _ => AF_INET6) := by
  obtain ⟨rest,hdata⟩ := h.front
  rw [List.append_assoc] at hdata
  have hsplit : e.storage.data = []++x.familyBytes++(portBytes x.port++rest) := hdata
  cases x <;> exact congrArg (Option.map hostOrder) (bytesAt_data hsplit)

theorem In.getPort : e.getPort = some x.port.toNat := by
  obtain ⟨rest,hdata⟩ := h.front
  have hbytes : e.bytesAt 2 2 = some (portBytes x.port) := by
    cases x <;> exact bytesAt_data hdata
  rw [Endpoint.getPort,hbytes,Option.map_some,ntohs_portBytes]

theorem In.shownAt :
    ∃ offset, e.getInAddr = some offset ∧ e.bytesAt offset 4 = some x.shown := by
  have hfamily := h.family
  cases x with
  | inet address port =>
    refine ⟨4,?_,?_⟩
    · rw [Endpoint.getInAddr,hfamily]
      rfl
    · obtain ⟨rest,-,hdata⟩ := h
      have hbytes := bytesAt_data hdata
      rwa [address.toList_length] at hbytes
  | inet6 address port =>
    refine ⟨8,?_,?_⟩
    · rw [Endpoint.getInAddr,hfamily]
      rfl
    · obtain ⟨flowinfo,rest,hflow,-,hdata⟩ := h
      have hsplit : e.storage.data = [10,0]++portBytes port++flowinfo++address.toList.take 4++
          (address.toList.drop 4++rest) := by
        rw [hdata,List.append_assoc,List.append_assoc _ (address.toList.take 4),
          ← List.append_assoc (address.toList.take 4),List.take_append_drop]
      have hbytes := bytesAt_data hsplit
      have hfour := length_shown (.inet6 address port)
      rw [shown] at hfour
      rw [List.length_append,hflow,hfour] at hbytes
      exact hbytes

theorem In.addr : e.addr = some (padded (match x with
    | .inet _ _ => INET_ADDRSTRLEN
    | .inet6 _ _ => INET6_ADDRSTRLEN) x.shown) := by
  obtain ⟨offset,hoffset,hshown⟩ := h.shownAt
  have hfamily := h.family
  have hdata := data_inetNtop x.length_shown
  have hrun : e.addr = (do
      let family ← e.family
      if family = AF_INET then return (padded INET6_ADDRSTRLEN x.shown).take INET_ADDRSTRLEN
      else if family = AF_INET6 then
        return (padded INET6_ADDRSTRLEN x.shown).take INET6_ADDRSTRLEN
      else return ascii "INVALID") := by
    rw [Endpoint.addr,hoffset,← hdata]
    simp only [Option.bind_eq_bind,Option.bind_some,hshown]
  rw [hrun,hfamily]
  have htake := fun n => take_padded (n := n) (m := INET6_ADDRSTRLEN) x.length_shown
  cases x with
  | inet address port => exact congrArg some (htake INET_ADDRSTRLEN (by decide) (by decide))
  | inet6 address port => exact congrArg some (htake INET6_ADDRSTRLEN (by decide) (by decide))

theorem In.portText : e.port = some (Decimal.text x.port.toNat) := by
  rw [Endpoint.port,h.family,h.getPort]
  cases x <;> rfl

theorem In.str : e.str = some x.text := by
  rw [Endpoint.str,h.family,h.addr,h.portText]
  cases x <;> rfl

end In

/-! Reading a text. -/

/-- The two parts of a text at its colon, as numbers. -/
def parse (t : List Byte) : Option (List Nat × Nat) :=
  match t.splitOn colon with
  | [address, port] => do return (← Decimal.listValue dot address, ← Decimal.value port)
  | _ => none

/-- A text without its zero bytes and brackets. -/
def plain (t : List Byte) : List Byte :=
  t.filter fun b => b ≠ 0 && b ≠ openBracket && b ≠ closeBracket

theorem mem_dotted {bytes : List Byte} {b : Byte} (h : b ∈ dotted bytes) :
    b = dot ∨ Decimal.isDigit b = true := Decimal.mem_listText h

theorem ne_of_textual {b c : Byte} (hb : b = dot ∨ Decimal.isDigit b = true) (hdot : c ≠ dot)
    (hc : Decimal.isDigit c = false) : b ≠ c := by
  intro h
  subst h
  obtain hb | hb := hb
  · exact hdot hb
  · rw [hc] at hb
    cases hb

theorem parse_joined {bytes : List Byte} (hbytes : bytes ≠ []) (n : Nat) :
    parse (dotted bytes++[colon]++Decimal.text n) = some (bytes.map (·.toNat),n) := by
  have hsplit : (dotted bytes++[colon]++Decimal.text n).splitOn colon =
      [dotted bytes,Decimal.text n] := by
    have hjoin : [colon].intercalate [dotted bytes,Decimal.text n] =
        dotted bytes++[colon]++Decimal.text n := by
      rw [List.intercalate_cons_cons,List.intercalate_singleton]
    rw [← hjoin]
    refine List.splitOn_intercalate colon ?_ (List.cons_ne_nil _ _)
    intro t ht
    obtain rfl | ht := List.mem_cons.mp ht
    · exact fun h => ne_of_textual (mem_dotted h) (by decide) (by decide) rfl
    · rw [List.mem_singleton.mp ht]
      exact Decimal.not_mem_text (by decide) n
  have haddress : Decimal.listValue dot (dotted bytes) = some (bytes.map (·.toNat)) :=
    Decimal.listValue_listText (by decide) fun h => hbytes (List.map_eq_nil_iff.mp h)
  rw [parse,hsplit]
  simp only [haddress,Decimal.value_text]
  rfl

theorem plain_text (x : SocketAddress) :
    plain x.text = dotted x.shown++[colon]++Decimal.text x.port.toNat := by
  have hkept : ∀ b : Byte, b = dot ∨ Decimal.isDigit b = true →
      (b ≠ 0 && b ≠ openBracket && b ≠ closeBracket) = true := by
    intro b hb
    have hzero : b ≠ 0 := ne_of_textual hb (by decide) (by decide)
    have hopen : b ≠ openBracket := ne_of_textual hb (by decide) (by decide)
    have hclose : b ≠ closeBracket := ne_of_textual hb (by decide) (by decide)
    simp [hzero,hopen,hclose]
  have hdotted : plain (dotted x.shown) = dotted x.shown :=
    List.filter_eq_self.mpr fun b hb => hkept b (mem_dotted hb)
  have hport : plain (Decimal.text x.port.toNat) = Decimal.text x.port.toNat :=
    List.filter_eq_self.mpr fun b hb => hkept b (Or.inr (Decimal.isDigit_of_mem_text hb))
  have hpadded : ∀ n, plain (padded n x.shown) = dotted x.shown := by
    intro n
    have hzeros : plain (List.replicate (n-(dotted x.shown).length) 0) = [] := by
      refine List.filter_eq_nil_iff.mpr ?_
      intro b hb
      rw [List.eq_of_mem_replicate hb]
      decide
    rw [padded,plain,List.filter_append]
    exact (congrArg₂ (·++·) hdotted hzeros).trans (List.append_nil _)
  have happend : ∀ s t, plain (s++t) = plain s++plain t := fun s t => List.filter_append s t
  cases x with
  | inet address port =>
    rw [text,happend,happend,hpadded]
    exact congrArg (dotted _++[colon]++·) hport
  | inet6 address port =>
    rw [text,happend,happend,happend,hpadded]
    exact congrArg (dotted _++[colon]++·) hport

theorem parse_plain_text (x : SocketAddress) :
    parse (plain x.text) = some (x.shown.map (·.toNat),x.port.toNat) := by
  rw [plain_text]
  refine parse_joined ?_ _
  intro h
  have hlength := x.length_shown
  rw [h] at hlength
  cases hlength

theorem openBracket_not_mem (address : List.Vector Byte 4) (port : UInt16) :
    openBracket ∉ text (.inet address port) := by
  have hdotted : openBracket ∉ dotted (shown (.inet address port)) :=
    fun h => ne_of_textual (mem_dotted h) (by decide) (by decide) rfl
  have hzeros : ∀ n, openBracket ∉ List.replicate n (0 : Byte) :=
    fun n h => absurd (List.eq_of_mem_replicate h) (by decide)
  have hcolon : openBracket ∉ [colon] := by decide
  have hport : openBracket ∉ Decimal.text port.toNat := Decimal.not_mem_text (by decide) _
  rw [text,padded]
  simp only [List.mem_append,not_or]
  exact ⟨⟨⟨hdotted,hzeros _⟩,hcolon⟩,hport⟩

/-- An IPv6 text begins with a bracket, an IPv4 text does not. -/
theorem head_text (x : SocketAddress) : x.text.head? = some openBracket ↔
    ∃ address port, x = .inet6 address port := by
  cases x with
  | inet6 address port => exact iff_of_true rfl ⟨address,port,rfl⟩
  | inet address port =>
    refine iff_of_false ?_ (fun h => by obtain ⟨_,_,h⟩ := h; cases h)
    intro h
    exact openBracket_not_mem address port (List.mem_of_head? h)

/-- Two IPv6 addresses that differ only behind their first four bytes. -/
def Shadowed : SocketAddress → SocketAddress → Prop
  | .inet6 address port, .inet6 address' port' =>
    address.toList.take 4 = address'.toList.take 4 ∧ port = port' ∧ address ≠ address'
  | _, _ => False

theorem Shadowed.text_eq {x y : SocketAddress} (h : Shadowed x y) : x.text = y.text := by
  cases x with
  | inet address port => exact h.elim
  | inet6 address port => cases y with
    | inet address' port' => exact h.elim
    | inet6 address' port' =>
      obtain ⟨hshown,rfl,-⟩ := h
      rw [text,text,shown,shown,hshown]

theorem eq_or_shadowed {x y : SocketAddress} (hfamily : (∃ address port, x = .inet6 address port) ↔
    ∃ address port, y = .inet6 address port) (hshown : x.shown = y.shown)
    (hport : x.port = y.port) : x = y ∨ Shadowed x y := by
  cases x with
  | inet address port => cases y with
    | inet address' port' =>
      obtain rfl := List.Vector.toList_injective hshown
      obtain rfl : port = port' := hport
      exact Or.inl rfl
    | inet6 address' port' =>
      obtain ⟨_,_,h⟩ := hfamily.mpr ⟨_,_,rfl⟩
      cases h
  | inet6 address port => cases y with
    | inet address' port' =>
      obtain ⟨_,_,h⟩ := hfamily.mp ⟨_,_,rfl⟩
      cases h
    | inet6 address' port' =>
      obtain rfl : port = port' := hport
      by_cases haddress : address = address'
      · exact Or.inl (by rw [haddress])
      · exact Or.inr ⟨hshown,rfl,haddress⟩

/-- The text says which family it is, four bytes and the port. -/
theorem text_eq_iff {x y : SocketAddress} : x.text = y.text ↔ x = y ∨ Shadowed x y := by
  constructor
  · intro h
    have hparsed := congrArg (fun t => parse (plain t)) h
    simp only [parse_plain_text,Option.some.injEq,Prod.mk.injEq] at hparsed
    have hshown : x.shown = y.shown :=
      List.map_injective_iff.mpr (fun _ _ h => UInt8.toNat_inj.mp h) hparsed.1
    have hport : x.port = y.port := UInt16.toNat_inj.mp hparsed.2
    exact eq_or_shadowed (by rw [← head_text,← head_text,h]) hshown hport
  · intro h
    obtain rfl | h := h
    · rfl
    · exact h.text_eq

/-- The text identifies the address exactly if it is not that of an IPv6 address and of another
one with the same first four bytes. -/
theorem str_identifies_iff {e e' : Endpoint} {x y : SocketAddress} (hx : In e x) (hy : In e' y) :
    (e.str = e'.str → x = y) ↔ ¬Shadowed x y := by
  rw [hx.str,hy.str,Option.some.injEq,text_eq_iff]
  constructor
  · intro h hshadowed
    have heq := h (Or.inr hshadowed)
    subst heq
    cases x with
    | inet address port => exact hshadowed
    | inet6 address port => exact hshadowed.2.2 rfl
  · intro hno h
    exact h.resolve_right hno

/-- 127.0.0.1 and 127.0.0.2. -/
theorem str_loopback :
    (Endpoint.fromNativeAddress 6 (bytes (.inet ⟨[127,0,0,1],rfl⟩ 5000))).str ≠
      (Endpoint.fromNativeAddress 6 (bytes (.inet ⟨[127,0,0,2],rfl⟩ 5000))).str := by
  intro h
  have heq := (str_identifies_iff (in_native 6 (.inet ⟨[127,0,0,1],rfl⟩ 5000))
    (in_native 6 (.inet ⟨[127,0,0,2],rfl⟩ 5000))).mpr (fun h => h) h
  exact absurd heq (by decide)

/-- 2001:db8::1 and 2001:db8::2, at the same port. -/
theorem str_shadowed : ¬∀ (e e' : Endpoint) (x y : SocketAddress), In e x → In e' y →
    e.str = e'.str → x = y := by
  intro h
  have htext : text (.inet6 ⟨[32,1,13,184,0,0,0,0,0,0,0,0,0,0,0,1],rfl⟩ 5000) =
      text (.inet6 ⟨[32,1,13,184,0,0,0,0,0,0,0,0,0,0,0,2],rfl⟩ 5000) :=
    Shadowed.text_eq ⟨rfl,rfl,fun h => absurd (congrArg List.Vector.toList h) (by decide)⟩
  have hx := in_native 6 (.inet6 ⟨[32,1,13,184,0,0,0,0,0,0,0,0,0,0,0,1],rfl⟩ 5000)
  have hy := in_native 6 (.inet6 ⟨[32,1,13,184,0,0,0,0,0,0,0,0,0,0,0,2],rfl⟩ 5000)
  have hstr := (hx.str.trans (congrArg some htext)).trans hy.str.symm
  exact absurd (h _ _ _ _ hx hy hstr) (by decide)

theorem In.addr_ne {e : Endpoint} {address : List.Vector Byte 4} {port : UInt16}
    (h : In e (.inet address port)) : e.addr ≠ some (dotted address.toList) := by
  intro haddr
  rw [h.addr,Option.some.injEq] at haddr
  have hlength := congrArg List.length haddr
  have hlt := length_dotted_lt address.toList_length
  rw [padded,List.length_append,List.length_replicate] at hlength
  change (dotted address.toList).length+(16-(dotted address.toList).length) = _ at hlength
  omega

/-- What `addr` and `str` should return for an IPv4 address. -/
structure ExactText (e : Endpoint) (address : List.Vector Byte 4) (port : UInt16) : Prop where
  addr : e.addr = some (dotted address.toList)
  str : e.str = e.addr.map (·++[colon]++Decimal.text port.toNat)
  parsed : e.str.bind parse = some (address.toList.map (·.toNat),port.toNat)

/-- No IPv4 address has the text it should have. -/
theorem never_exactText {e : Endpoint} {address : List.Vector Byte 4} {port : UInt16}
    (h : In e (.inet address port)) : ¬ExactText e address port :=
  fun hexact => h.addr_ne hexact.addr

theorem never_exactText_loopback :
    ¬ExactText (.fromNativeAddress 6 (bytes (.inet ⟨[127,0,0,1],rfl⟩ 5000)))
      ⟨[127,0,0,1],rfl⟩ 5000 :=
  never_exactText (in_native 6 (.inet ⟨[127,0,0,1],rfl⟩ 5000))

/-- "0.0.0.0" is followed by nine zero bytes. -/
theorem anyAddress_inexact : ¬∀ (e : Endpoint) (address : List.Vector Byte 4) (port : UInt16),
    In e (.inet address port) → ExactText e address port := by
  intro h
  have hany := in_native 6 (.inet ⟨[0,0,0,0],rfl⟩ 80)
  exact hany.addr_ne (h _ _ _ hany).addr

end SocketAddress
end Yonaa
