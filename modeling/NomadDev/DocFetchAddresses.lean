import NomadDev.Foundation.Cidr

namespace NomadDev.DocFetch

open Foundation.Cidr List

abbrev IP : Type := { b : List UInt8 // b.length = 16 }

def v4InV6Start : List UInt8 := [0, 0, 0, 0, 0, 0, 0, 0, 0, 0, 0xff, 0xff]

variable (ip : List UInt8)

def to4 : Option (List UInt8) := if ip.take 12 = v4InV6Start then some (ip.drop 12) else none

section Predicates

variable (ip : List UInt8)

def at_ (b : List UInt8) (i : ℕ) : UInt8 := b.getD i 0

def isUnspecified : Bool := ip == v4InV6Start ++ [0, 0, 0, 0] || ip == List.replicate 16 0

def isLoopback : Bool :=
  match to4 ip with
  | some ip4 => at_ ip4 0 == 127
  | none => ip == List.replicate 15 0 ++ [1]

def isPrivate : Bool :=
  match to4 ip with
  | some ip4 => at_ ip4 0 == 10 || (at_ ip4 0 == 172 && at_ ip4 1 &&& 0xf0 == 16) ||
      (at_ ip4 0 == 192 && at_ ip4 1 == 168)
  | none => at_ ip 0 &&& 0xfe == 0xfc

def isMulticast : Bool :=
  match to4 ip with
  | some ip4 => at_ ip4 0 &&& 0xf0 == 0xe0
  | none => at_ ip 0 == 0xff

def isInterfaceLocalMulticast : Bool := at_ ip 0 == 0xff && at_ ip 1 &&& 0x0f == 0x01

def isLinkLocalMulticast : Bool :=
  match to4 ip with
  | some ip4 => at_ ip4 0 == 224 && at_ ip4 1 == 0 && at_ ip4 2 == 0
  | none => at_ ip 0 == 0xff && at_ ip 1 &&& 0x0f == 0x02

def isLinkLocalUnicast : Bool :=
  match to4 ip with
  | some ip4 => at_ ip4 0 == 169 && at_ ip4 1 == 254
  | none => at_ ip 0 == 0xfe && at_ ip 1 &&& 0xc0 == 0x80

end Predicates

def isNonPublicIP : Bool :=
  isUnspecified ip || isLinkLocalUnicast ip || isLinkLocalMulticast ip || isMulticast ip ||
    isInterfaceLocalMulticast ip || isPrivate ip ||
    (to4 ip).any fun ip4 => at_ ip4 0 == 100 && at_ ip4 1 &&& 0xc0 == 0x40

def isBlockedIP (allowLoopback : Bool) (ip : List UInt8) : Bool :=
  if isLoopback ip then !allowLoopback else isNonPublicIP ip

inductive DialErr
  | noHostPort
  | notIP
  | blocked (ip : IP)

def dialControl (splitHostPort : String → Option String) (parseIP : String → Option IP) (allowLoopback : Bool)
    (address : String) : Except DialErr Unit :=
  match splitHostPort address with
  | none => .error .noHostPort
  | some host =>
    match parseIP host with
    | none => .error .notIP
    | some ip => if isBlockedIP allowLoopback ip.1 then .error (.blocked ip) else .ok ()

def reserved4 : List Block :=
  [⟨[0, 0, 0, 0], 8⟩, ⟨[10, 0, 0, 0], 8⟩, ⟨[100, 64, 0, 0], 10⟩, ⟨[127, 0, 0, 0], 8⟩, ⟨[169, 254, 0, 0], 16⟩,
    ⟨[172, 16, 0, 0], 12⟩, ⟨[192, 0, 0, 0], 24⟩, ⟨[192, 168, 0, 0], 16⟩, ⟨[198, 18, 0, 0], 15⟩, ⟨[224, 0, 0, 0], 4⟩,
    ⟨[240, 0, 0, 0], 4⟩]

def reserved6 : List Block :=
  [⟨List.replicate 16 0, 128⟩, ⟨List.replicate 15 0 ++ [1], 128⟩, ⟨0xfc :: List.replicate 15 0, 7⟩,
    ⟨0xfe :: 0x80 :: List.replicate 14 0, 10⟩, ⟨0xff :: List.replicate 15 0, 8⟩]

def Reserved : Prop :=
  match to4 ip with
  | some ip4 => ∃ r ∈ reserved4, r.contains ip4 = true
  | none => ∃ r ∈ reserved6, r.contains ip = true

def nat64 : Block := ⟨[0, 0x64, 0xff, 0x9b, 0, 0, 0, 0, 0, 0, 0, 0, 0, 0, 0, 0], 96⟩

def sixToFour : Block := ⟨0x20 :: 0x02 :: List.replicate 14 0, 16⟩

def embedded : Option (List UInt8) :=
  match to4 ip with
  | some ip4 => some ip4
  | none =>
    if nat64.contains ip then some (ip.drop 12)
    else if sixToFour.contains ip then some ((ip.drop 2).take 4)
    else none

def EmbedsBlocked : Prop :=
  ∃ ip4, embedded ip = some ip4 ∧ isBlockedIP false (v4InV6Start ++ ip4) = true

def GloballyReachable : Prop := ¬Reserved ip ∧ ¬EmbedsBlocked ip

def unchecked4 : List Block :=
  [⟨[0, 0, 0, 0], 8⟩, ⟨[192, 0, 0, 0], 24⟩, ⟨[198, 18, 0, 0], 15⟩, ⟨[240, 0, 0, 0], 4⟩]

def Unchecked : Prop :=
  match to4 ip with
  | some ip4 => ∃ r ∈ unchecked4, r.contains ip4 = true
  | none => EmbedsBlocked ip

def checked4 : List Block := reserved4.filter fun r => r ∉ unchecked4

section Proofs

variable {ip ip4 : List UInt8}

theorem to4_eq_some_iff : to4 ip = some ip4 ↔ ip = v4InV6Start ++ ip4 := by
  unfold to4
  constructor
  · intro h
    obtain ⟨hstart, hrest⟩ := Option.ite_none_right_eq_some.mp h
    rw [← hstart, ← Option.some.inj hrest, take_append_drop]
  · rintro rfl
    rfl

theorem blocked_of_checked4 (h4 : to4 ip = some ip4) (hlength : ip4.length = 4) {r : Block} (hr : r ∈ checked4)
    (h : r.contains ip4 = true) : isBlockedIP false ip = true := by
  have h16 := mask_eq_iff 0xf0 16 4 (by decide +kernel)
  have he0 := mask_eq_iff 0xf0 0xe0 4 (by decide +kernel)
  have h40 := mask_eq_iff 0xc0 0x40 6 (by decide +kernel)
  obtain ⟨a, b, c, d, rfl⟩ : ∃ a b c d, ip4 = [a, b, c, d] := length_eq_four.mp hlength
  have hlisted : checked4 = [⟨[10, 0, 0, 0], 8⟩, ⟨[100, 64, 0, 0], 10⟩, ⟨[127, 0, 0, 0], 8⟩, ⟨[169, 254, 0, 0], 16⟩,
      ⟨[172, 16, 0, 0], 12⟩, ⟨[192, 168, 0, 0], 16⟩, ⟨[224, 0, 0, 0], 4⟩] := by decide
  rw [hlisted] at hr
  simp only [mem_cons, not_mem_nil, or_false] at hr
  unfold isBlockedIP
  split
  · rfl
  rcases hr with rfl | rfl | rfl | rfl | rfl | rfl | rfl <;>
    simp_all [Block.contains, agree, isNonPublicIP, isPrivate, isMulticast, isLinkLocalUnicast, isLoopback, at_]

theorem blocked_of_reserved6 (h4 : to4 ip = none) (hlength : ip.length = 16) {r : Block} (hr : r ∈ reserved6)
    (h : r.contains ip = true) : isBlockedIP false ip = true := by
  have h80 := mask_eq_iff 0xc0 0x80 6 (by decide +kernel)
  have hfc := mask_eq_iff 0xfe 0xfc 1 (by decide +kernel)
  have hfull : ∀ base : List UInt8, base.length = 16 → (agree 128 base ip = true ↔ ip = base) := by
    intro base hbase
    have hagree := agree_bytes (hbase.trans hlength.symm)
    rwa [hbase] at hagree
  obtain ⟨b, c, rest, rfl⟩ : ∃ b c rest, ip = b :: c :: rest := by
    obtain ⟨b, tail, rfl⟩ := exists_cons_of_length_eq_add_one hlength
    obtain ⟨c, rest, rfl⟩ := exists_cons_of_length_eq_add_one (Nat.succ.inj hlength)
    exact ⟨b, c, rest, rfl⟩
  simp only [reserved6, mem_cons, not_mem_nil, or_false] at hr
  unfold isBlockedIP
  split
  · rfl
  next hloop =>
  rcases hr with rfl | rfl | rfl | rfl | rfl
  · rw [(hfull _ rfl).mp h]
    decide
  · rw [(hfull _ rfl).mp h] at hloop
    exact absurd (by decide) hloop
  all_goals simp_all [Block.contains, agree, isNonPublicIP, isPrivate, isMulticast, isLinkLocalUnicast, at_]

end Proofs

variable {splitHostPort : String → Option String} {parseIP : String → Option IP} {allowLoopback : Bool}
  {address : String}

theorem dialControl_eq_ok_iff : dialControl splitHostPort parseIP allowLoopback address = .ok () ↔
    ∃ host, ∃ ip : IP, splitHostPort address = some host ∧ parseIP host = some ip ∧
      isBlockedIP allowLoopback ip.1 = false := by
  unfold dialControl
  constructor
  · intro h
    split at h
    · cases h
    next host hhost =>
      split at h
      · cases h
      next ip hip =>
        split at h
        · cases h
        next hopen => exact ⟨host, ip, hhost, hip, eq_false_of_ne_true hopen⟩
  · rintro ⟨host, ip, hhost, hip, hopen⟩
    simp [hhost, hip, hopen]

theorem globallyReachable_iff_of_not_blocked (ip : IP) (h : isBlockedIP false ip.1 = false) :
    GloballyReachable ip.1 ↔ ¬Unchecked ip.1 := by
  cases h4 : to4 ip.1 with
  | none =>
    have hreserved : ¬Reserved ip.1 := by
      rintro hr
      rw [Reserved, h4] at hr
      obtain ⟨r, hr, hin⟩ := hr
      exact Bool.false_ne_true (h.symm.trans (blocked_of_reserved6 h4 ip.2 hr hin))
    rw [GloballyReachable, Unchecked, h4, and_iff_right hreserved]
  | some ip4 =>
    have hmapped := to4_eq_some_iff.mp h4
    have hlength : ip4.length = 4 := by
      have hip := ip.2
      rw [hmapped, length_append] at hip
      exact Nat.add_left_cancel hip
    have hembeds : ¬EmbedsBlocked ip.1 := by
      rintro ⟨ip4', hip4, hblocked⟩
      rw [embedded, h4] at hip4
      rw [← Option.some.inj hip4, ← hmapped, h] at hblocked
      exact Bool.false_ne_true hblocked
    rw [GloballyReachable, Unchecked, Reserved, h4, and_iff_left hembeds, not_iff_not]
    constructor
    · rintro ⟨r, hr, hin⟩
      by_cases hgap : r ∈ unchecked4
      · exact ⟨r, hgap, hin⟩
      · have hchecked : r ∈ checked4 := mem_filter.mpr ⟨hr, decide_eq_true hgap⟩
        exact absurd (h.symm.trans (blocked_of_checked4 h4 hlength hchecked hin)) Bool.false_ne_true
    · rintro ⟨r, hr, hin⟩
      have hlisted : ∀ r ∈ unchecked4, r ∈ reserved4 := by decide
      exact ⟨r, hlisted r hr, hin⟩

theorem dialed_reachable_iff (ip : IP) {host : String} (hhost : splitHostPort address = some host)
    (hip : parseIP host = some ip) (h : dialControl splitHostPort parseIP false address = .ok ()) :
    GloballyReachable ip.1 ↔ ¬Unchecked ip.1 := by
  obtain ⟨host', ip', hhost', hip', hopen⟩ := dialControl_eq_ok_iff.mp h
  obtain rfl : host = host' := Option.some.inj (hhost.symm.trans hhost')
  obtain rfl : ip = ip' := Option.some.inj (hip.symm.trans hip')
  exact globallyReachable_iff_of_not_blocked ip hopen

def mapped (a b c d : UInt8) : IP := ⟨v4InV6Start ++ [a, b, c, d], rfl⟩

def nat64Loopback : IP := ⟨[0, 0x64, 0xff, 0x9b, 0, 0, 0, 0, 0, 0, 0, 0, 127, 0, 0, 1], rfl⟩

def cutPort (address : String) : Option String :=
  match ((address.toList.reverse.dropWhile (· ≠ ':')).drop 1).reverse with
  | [] => none
  | '[' :: host => some (String.ofList host.dropLast)
  | host => some (String.ofList host)

def knownIP (host : String) : Option IP :=
  [("8.8.8.8", mapped 8 8 8 8), ("240.0.0.1", mapped 240 0 0 1), ("64:ff9b::7f00:1", nat64Loopback)].lookup host

theorem dialed_reachable_resolver : dialControl cutPort knownIP false "8.8.8.8:443" = .ok () ∧
      GloballyReachable (mapped 8 8 8 8).1 := by
  have hopen : dialControl cutPort knownIP false "8.8.8.8:443" = .ok () := rfl
  have hgap : ∀ r ∈ unchecked4, ¬r.contains [8, 8, 8, 8] = true := by decide
  refine ⟨hopen, (dialed_reachable_iff (mapped 8 8 8 8)
    (show cutPort "8.8.8.8:443" = some "8.8.8.8" from rfl) rfl hopen).mpr ?_⟩
  rintro ⟨r, hr, hin⟩
  exact hgap r hr hin

theorem reserved_address_dialed : dialControl cutPort knownIP false "240.0.0.1:443" = .ok () ∧
      Reserved (mapped 240 0 0 1).1 ∧ dialControl cutPort knownIP false "[64:ff9b::7f00:1]:443" = .ok () ∧
      EmbedsBlocked nat64Loopback.1 := by
  refine ⟨rfl, ?_, rfl, [127, 0, 0, 1], rfl, rfl⟩
  exact ⟨⟨[240, 0, 0, 0], 4⟩, by decide, rfl⟩

end NomadDev.DocFetch
