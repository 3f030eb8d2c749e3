import WayNetstack.Runner.Ingress

/-!
# Building the stack

The rest of `builder.rs`: the configuration of an interface, `build_interface` up to the point where
the engine's interface exists, and the chain of builder calls before `build`. The engine keeps the
addresses and the routes of an interface in tables of fixed capacity, and what does not fit is left
out; it panics on an address that it does not take. Its part is a parameter with laws (`Wiring`).

* `interfaces_known` — **the interfaces of a stack are those added, for good**: a chain of builder
  calls ends well just when no identifier is added twice; in every run of the stack it gives,
  `interface_ids` lists the identifiers in the order of the calls, `send_ip_packet` says
  `InterfaceNotFound` of the others and of no others, and `queue_ingress` never meets a packet for
  an interface that it does not know;
* `addresses_installed` — **which addresses and routes an interface gets**: on which configurations
  `build_interface` panics, what is in the tables on the others, and when the default route goes
  through an address that the interface does not have.
-/

namespace WayNetstack

open Lib

variable {S : Smoltcp}

/-! ### The configuration of an interface -/

/-- `std::net::Ipv4Addr`. -/
abbrev Ipv4Addr := UInt32

/-- `std::net::Ipv6Addr`. -/
abbrev Ipv6Addr := BitVec 128

/-- `wire::IpCidr`. -/
structure IpCidr where
  addr : IpAddress
  prefixLen : UInt8
  deriving DecidableEq

/-- `InterfaceConfig`. -/
structure InterfaceConfig where
  ipv4Addrs : List (Ipv4Addr × UInt8)
  ipv6Addrs : List (Ipv6Addr × UInt8)
  ipv4Gateway : Option Ipv4Addr
  ipv6Gateway : Option Ipv6Addr
  deriving DecidableEq

namespace InterfaceConfig

/-- `InterfaceConfig::default`. -/
def default : InterfaceConfig := ⟨[], [], none, none⟩

/-- `InterfaceConfig::new`. -/
def new (addr : Ipv4Addr) (prefixLen : UInt8) : InterfaceConfig :=
  { default with ipv4Addrs := [(addr, prefixLen)] }

/-- `InterfaceConfig::new_ipv6`. -/
def newIpv6 (addr : Ipv6Addr) (prefixLen : UInt8) : InterfaceConfig :=
  { default with ipv6Addrs := [(addr, prefixLen)] }

/-- `InterfaceConfig::ipv4`. -/
def ipv4 (spec : InterfaceConfig) (addr : Ipv4Addr) (prefixLen : UInt8) : InterfaceConfig :=
  { spec with ipv4Addrs := spec.ipv4Addrs ++ [(addr, prefixLen)] }

/-- `InterfaceConfig::ipv6`. -/
def ipv6 (spec : InterfaceConfig) (addr : Ipv6Addr) (prefixLen : UInt8) : InterfaceConfig :=
  { spec with ipv6Addrs := spec.ipv6Addrs ++ [(addr, prefixLen)] }

/-- `InterfaceConfig::gateway_ipv4`. -/
def gatewayIpv4 (spec : InterfaceConfig) (gw : Ipv4Addr) : InterfaceConfig :=
  { spec with ipv4Gateway := some gw }

/-- `InterfaceConfig::gateway_ipv6`. -/
def gatewayIpv6 (spec : InterfaceConfig) (gw : Ipv6Addr) : InterfaceConfig :=
  { spec with ipv6Gateway := some gw }

/-- The addresses of the configuration, in the order in which they are installed. -/
def addrs (spec : InterfaceConfig) : List (IpAddress × UInt8) :=
  spec.ipv4Addrs.map (fun x => (.v4 x.1, x.2)) ++ spec.ipv6Addrs.map fun x => (.v6 x.1, x.2)

/-- The same as entries of the table of an interface. -/
def cidrs (spec : InterfaceConfig) : List IpCidr := spec.addrs.map fun x => ⟨x.1, x.2⟩

theorem cidrs_eq (spec : InterfaceConfig) : spec.cidrs =
    spec.ipv4Addrs.map (fun x => ⟨.v4 x.1, x.2⟩) ++ spec.ipv6Addrs.map fun x => ⟨.v6 x.1, x.2⟩ := by
  rw [cidrs, addrs, List.map_append, List.map_map, List.map_map]
  rfl

end InterfaceConfig

/-! ### The tables of an interface -/

/-- A default route, by its gateway. -/
abbrev DefaultRoute := IpAddress

/-- The address is an IPv4 address. -/
def IpAddress.isV4 : IpAddress → Bool
  | .v4 _ => true
  | .v6 _ => false

/-- The bits of the address: the longest prefix that it can have. -/
def IpAddress.bits : IpAddress → ℕ
  | .v4 _ => 32
  | .v6 _ => 128

/-- What `build_interface` uses of the engine; a result `none` is a panic. The tables are those of
`Interface::ip_addrs` and `Interface::routes`, which only these calls change. -/
structure Wiring (S : Smoltcp) where
  /-- `IFACE_MAX_ADDR_COUNT`. -/
  addrCapacity : ℕ
  /-- `IFACE_MAX_ROUTE_COUNT`. -/
  routeCapacity : ℕ
  /-- `IpCidr::new`. -/
  cidrNew : IpAddress → UInt8 → Option IpCidr
  /-- `Interface::new` for a device with the MTU, with the random seed and the time. -/
  create : (mtu : ℕ) → (seed : ℕ) → Instant → S.Iface
  /-- `Interface::set_any_ip`. -/
  setAnyIp : S.Iface → Bool → S.Iface
  addrs : S.Iface → List IpCidr
  /-- `heapless::Vec::push` on a table of addresses: the table, and whether there was room. -/
  push : List IpCidr → IpCidr → List IpCidr × Bool
  /-- `is_unicast() || is_unspecified()`: the addresses that an interface may have. -/
  assignable : IpAddress → Bool
  /-- `Interface::update_ip_addrs`, the closure of which may panic. -/
  updateIpAddrs : S.Iface → (List IpCidr → Option (List IpCidr)) → Option S.Iface
  /-- The gateways of the default routes. -/
  routes : S.Iface → List DefaultRoute
  /-- `Routes::add_default_ipv4_route` and `Routes::add_default_ipv6_route`, by the family of the
  gateway. The callers drop the result. -/
  addDefaultRoute : S.Iface → DefaultRoute → S.Iface

/-- What is assumed of these calls. -/
structure Wiring.Lawful (W : Wiring S) : Prop where
  /-- `IpCidr::new` panics on a prefix that is too long, and on no other. -/
  cidrNew_eq : ∀ a len, W.cidrNew a len = if len.toNat ≤ a.bits then some ⟨a, len⟩ else none
  create_addrs : ∀ mtu seed now, W.addrs (W.create mtu seed now) = []
  create_routes : ∀ mtu seed now, W.routes (W.create mtu seed now) = []
  setAnyIp_addrs : ∀ i on, W.addrs (W.setAnyIp i on) = W.addrs i
  setAnyIp_routes : ∀ i on, W.routes (W.setAnyIp i on) = W.routes i
  push_eq : ∀ table cidr, W.push table cidr =
    if table.length < W.addrCapacity then (table ++ [cidr], true) else (table, false)
  /-- `update_ip_addrs` panics if its closure does, and if the closure leaves an address that is not
  assignable. -/
  updateIpAddrs_isSome : ∀ i f, (W.updateIpAddrs i f).isSome ↔
    ∃ table, f (W.addrs i) = some table ∧ ∀ cidr ∈ table, W.assignable cidr.addr
  updateIpAddrs_addrs : ∀ i f i', W.updateIpAddrs i f = some i' → f (W.addrs i) = some (W.addrs i')
  updateIpAddrs_routes : ∀ i f i', W.updateIpAddrs i f = some i' → W.routes i' = W.routes i
  addDefaultRoute_addrs : ∀ i gw, W.addrs (W.addDefaultRoute i gw) = W.addrs i
  /-- The first default route of a family is added if there is room. -/
  addDefaultRoute_routes : ∀ i gw, (∀ r ∈ W.routes i, r.isV4 ≠ gw.isV4) → W.routes (W.addDefaultRoute i gw) =
    if (W.routes i).length < W.routeCapacity then W.routes i ++ [gw] else W.routes i

namespace Wiring

variable (W : Wiring S)

/-- A loop of `build_interface` over addresses: one for which there is no room is left out. -/
def pushAddrs (table : List IpCidr) (addrs : List (IpAddress × UInt8)) : Option (List IpCidr) :=
  addrs.foldlM (fun table x => do
    let cidr ← W.cidrNew x.1 x.2
    return (W.push table cidr).1) table

/-- The closure that `build_interface` gives to `update_ip_addrs`. -/
def fillAddrs (spec : InterfaceConfig) (table : List IpCidr) : Option (List IpCidr) := do
  let table ← W.pushAddrs table (spec.ipv4Addrs.map fun x => (.v4 x.1, x.2))
  W.pushAddrs table (spec.ipv6Addrs.map fun x => (.v6 x.1, x.2))

/-- The gateway of a family: the one given, or else the first address. -/
def gatewayOf {α : Type} (gateway : Option α) (addrs : List (α × UInt8)) : Option α :=
  match gateway with
  | some gw => some gw
  | none => addrs.head?.map (·.1)

/-- Install the default route of a family, if it has a gateway. -/
def installRoute (i : S.Iface) (gw : Option DefaultRoute) : S.Iface :=
  match gw with
  | some gw => W.addDefaultRoute i gw
  | none => i

/-- `build_interface`, up to the point where the engine's interface exists. -/
def wireInterface (spec : InterfaceConfig) (config : NetstackConfig) (seed : ℕ) (now : Instant) :
    Option S.Iface := do
  let iface := W.setAnyIp (W.create config.mtu seed now) true
  let iface ← W.updateIpAddrs iface (W.fillAddrs spec)
  let iface := W.installRoute iface ((gatewayOf spec.ipv4Gateway spec.ipv4Addrs).map .v4)
  return W.installRoute iface ((gatewayOf spec.ipv6Gateway spec.ipv6Addrs).map .v6)

end Wiring

/-- The configurations that `build_interface` does not panic on: every prefix fits its address, and
the addresses that get a place in the table may be addresses of an interface. -/
structure InterfaceConfig.Valid (W : Wiring S) (spec : InterfaceConfig) : Prop where
  prefixes : ∀ x ∈ spec.addrs, x.2.toNat ≤ x.1.bits
  assignable : ∀ cidr ∈ spec.cidrs.take W.addrCapacity, W.assignable cidr.addr

/-- The default routes of a configuration: through the gateway given, or else through the family's
first address. -/
def InterfaceConfig.routes (spec : InterfaceConfig) : List DefaultRoute :=
  ((Wiring.gatewayOf spec.ipv4Gateway spec.ipv4Addrs).map IpAddress.v4).toList ++
    ((Wiring.gatewayOf spec.ipv6Gateway spec.ipv6Addrs).map IpAddress.v6).toList

namespace Wiring.Lawful

variable {W : Wiring S}

/-- The loops fill the table from the front, unless a prefix is too long. -/
theorem pushAddrs_eq (hW : W.Lawful) (addrs : List (IpAddress × UInt8)) (table : List IpCidr)
    (hle : table.length ≤ W.addrCapacity) :
    W.pushAddrs table addrs = if ∀ x ∈ addrs, x.2.toNat ≤ x.1.bits then
      some ((table ++ addrs.map fun x => (⟨x.1, x.2⟩ : IpCidr)).take W.addrCapacity) else none := by
  induction addrs generalizing table with
  | nil => simp [pushAddrs, List.take_of_length_le hle]
  | cons x rest ih =>
    have hcons : W.pushAddrs table (x :: rest) =
        (W.cidrNew x.1 x.2).bind fun cidr => W.pushAddrs (W.push table cidr).1 rest := by
      unfold pushAddrs
      rw [List.foldlM_cons]
      cases W.cidrNew x.1 x.2 <;> rfl
    rw [hcons, hW.cidrNew_eq]
    by_cases hx : x.2.toNat ≤ x.1.bits
    · rw [if_pos hx, Option.bind_some, hW.push_eq]
      simp only [List.forall_mem_cons, hx, true_and, List.map_cons]
      split
      · next hlt =>
        rw [ih _ (by rw [List.length_append]; exact hlt), List.append_assoc]
        rfl
      · next hfull =>
        have hlen : table.length = W.addrCapacity := Nat.le_antisymm hle (Nat.le_of_not_lt hfull)
        rw [ih table hle, ← hlen, List.take_left, List.take_left]
    · rw [if_neg hx, Option.bind_none, if_neg fun h => hx (h x List.mem_cons_self)]

/-- On a new interface the two loops are one over all addresses. -/
theorem fillAddrs_nil (hW : W.Lawful) (spec : InterfaceConfig) : W.fillAddrs spec [] =
    if ∀ x ∈ spec.addrs, x.2.toNat ≤ x.1.bits then some (spec.cidrs.take W.addrCapacity) else none :=
  calc W.fillAddrs spec [] = W.pushAddrs [] spec.addrs := List.foldlM_append.symm
    _ = _ := hW.pushAddrs_eq spec.addrs [] (Nat.zero_le _)

/-- What a default route does to the table of routes. -/
theorem installRoute (hW : W.Lawful) (i : S.Iface) (gw : Option DefaultRoute)
    (hnew : ∀ r ∈ W.routes i, ∀ g ∈ gw, r.isV4 ≠ g.isV4) (hle : (W.routes i).length ≤ W.routeCapacity) :
    W.addrs (W.installRoute i gw) = W.addrs i ∧
      W.routes (W.installRoute i gw) = (W.routes i ++ gw.toList).take W.routeCapacity := by
  cases gw with
  | none => exact ⟨rfl, by simp [Wiring.installRoute, List.take_of_length_le hle]⟩
  | some g =>
    refine ⟨hW.addDefaultRoute_addrs _ _, (hW.addDefaultRoute_routes i g fun r hr => hnew r hr g rfl).trans ?_⟩
    split
    · next hlt => exact (List.take_of_length_le (by rw [List.length_append]; exact hlt)).symm
    · next hfull =>
      have hlen : (W.routes i).length = W.routeCapacity := Nat.le_antisymm hle (Nat.le_of_not_lt hfull)
      rw [← hlen, List.take_left]

/-- Both default routes of an interface that has none. -/
theorem installRoutes (hW : W.Lawful) (spec : InterfaceConfig) (i : S.Iface) (hroutes : W.routes i = []) :
    let i' := W.installRoute (W.installRoute i ((gatewayOf spec.ipv4Gateway spec.ipv4Addrs).map .v4))
      ((gatewayOf spec.ipv6Gateway spec.ipv6Addrs).map .v6)
    W.addrs i' = W.addrs i ∧ W.routes i' = spec.routes.take W.routeCapacity := by
  obtain ⟨haddrs₁, hroutes₁⟩ := hW.installRoute i ((gatewayOf spec.ipv4Gateway spec.ipv4Addrs).map IpAddress.v4)
    (by simp [hroutes]) (by simp [hroutes])
  rw [hroutes, List.nil_append] at hroutes₁
  -- the route of the other family is not replaced
  have hother : ∀ r ∈ W.routes (W.installRoute i ((gatewayOf spec.ipv4Gateway spec.ipv4Addrs).map IpAddress.v4)),
      ∀ g ∈ (gatewayOf spec.ipv6Gateway spec.ipv6Addrs).map IpAddress.v6, r.isV4 ≠ g.isV4 := by
    intro r hr g hg
    rw [hroutes₁] at hr
    obtain ⟨gw, -, rfl⟩ := Option.map_eq_some_iff.mp (Option.mem_toList.mp (List.mem_of_mem_take hr))
    obtain ⟨gw', -, rfl⟩ := Option.map_eq_some_iff.mp hg
    simp [IpAddress.isV4]
  obtain ⟨haddrs₂, hroutes₂⟩ := hW.installRoute _ _ hother (hroutes₁ ▸ List.length_take_le _ _)
  refine ⟨haddrs₂.trans haddrs₁, hroutes₂.trans ?_⟩
  rw [hroutes₁]
  unfold InterfaceConfig.routes
  cases gatewayOf spec.ipv4Gateway spec.ipv4Addrs with
  | none => simp
  | some gw => cases W.routeCapacity <;> simp

/-- `build_interface` does not panic just on a valid configuration. -/
theorem wireInterface_isSome (hW : W.Lawful) (spec : InterfaceConfig) (config : NetstackConfig) (seed : ℕ)
    (now : Instant) : (W.wireInterface spec config seed now).isSome ↔ spec.Valid W := by
  have hupdate : (W.wireInterface spec config seed now).isSome ↔
      (W.updateIpAddrs (W.setAnyIp (W.create config.mtu seed now) true) (W.fillAddrs spec)).isSome := by
    unfold Wiring.wireInterface
    dsimp only
    cases W.updateIpAddrs (W.setAnyIp (W.create config.mtu seed now) true) (W.fillAddrs spec) <;> rfl
  rw [hupdate, hW.updateIpAddrs_isSome, hW.setAnyIp_addrs, hW.create_addrs, hW.fillAddrs_nil]
  constructor
  · rintro ⟨table, htable, hassign⟩
    obtain ⟨hfit, htable⟩ := Option.ite_none_right_eq_some.mp htable
    cases htable
    exact ⟨hfit, hassign⟩
  · rintro ⟨hfit, hassign⟩
    exact ⟨_, if_pos hfit, hassign⟩

/-- The tables of an interface just built. -/
theorem wireInterface (hW : W.Lawful) {spec : InterfaceConfig} {config : NetstackConfig} {seed : ℕ}
    {now : Instant} {i : S.Iface} (hi : W.wireInterface spec config seed now = some i) :
    W.addrs i = spec.cidrs.take W.addrCapacity ∧ W.routes i = spec.routes.take W.routeCapacity := by
  obtain ⟨i₁, hupdate, hi₁⟩ := Option.bind_eq_some_iff.mp hi
  cases hi₁
  have haddrs := hW.updateIpAddrs_addrs _ _ _ hupdate
  rw [hW.setAnyIp_addrs, hW.create_addrs, hW.fillAddrs_nil] at haddrs
  obtain ⟨-, haddrs⟩ := Option.ite_none_right_eq_some.mp haddrs
  have hroutes : W.routes i₁ = [] := by
    rw [hW.updateIpAddrs_routes _ _ _ hupdate, hW.setAnyIp_routes, hW.create_routes]
  obtain ⟨haddrs₂, hroutes₂⟩ := hW.installRoutes spec i₁ hroutes
  exact ⟨haddrs₂.trans (Option.some.inj haddrs).symm, hroutes₂⟩

end Wiring.Lawful

/-- **Which addresses and routes an interface gets.** `build_interface` panics on a configuration
with a prefix longer than its address, and on one with an address in the table that is neither
unicast nor unspecified; on every other it gives an interface. The addresses are the first of the
configuration's IPv4 addresses followed by its IPv6 addresses, as many as the table holds, and so
are the default routes, that of IPv4 before that of IPv6. The first IPv4 address is an address of
the interface; the first IPv6 address is one just when the IPv4 addresses do not fill the table, so
that the default route of IPv6 may go through an address that the interface does not have. -/
theorem addresses_installed {W : Wiring S} (hW : W.Lawful) (hcap : 0 < W.addrCapacity) (spec : InterfaceConfig)
    (config : NetstackConfig) (seed : ℕ) (now : Instant) :
    ((∃ i, W.wireInterface spec config seed now = some i) ↔ spec.Valid W) ∧
    ∀ i, W.wireInterface spec config seed now = some i →
      W.addrs i = spec.cidrs.take W.addrCapacity ∧ W.routes i = spec.routes.take W.routeCapacity ∧
      (∀ x ∈ spec.ipv4Addrs.head?, ⟨.v4 x.1, x.2⟩ ∈ W.addrs i) ∧
      ((∀ x ∈ spec.ipv6Addrs.head?, ⟨.v6 x.1, x.2⟩ ∈ W.addrs i) ↔
        spec.ipv6Addrs = [] ∨ spec.ipv4Addrs.length < W.addrCapacity) := by
  refine ⟨Option.isSome_iff_exists.symm.trans (hW.wireInterface_isSome spec config seed now), fun i hi => ?_⟩
  obtain ⟨haddrs, hroutes⟩ := hW.wireInterface hi
  refine ⟨haddrs, hroutes, fun x hx => ?_, ⟨fun hall => ?_, fun hroom x hx => ?_⟩⟩
  · obtain ⟨rest, hrest⟩ := List.head?_eq_some_iff.mp hx
    rw [haddrs, InterfaceConfig.cidrs_eq, hrest, ← Nat.succ_pred_eq_of_pos hcap]
    exact List.mem_cons_self
  · cases hsix : spec.ipv6Addrs with
    | nil => exact .inl rfl
    | cons x rest =>
      refine .inr (Nat.lt_of_not_le fun hfull => ?_)
      have hmem := hall x (by rw [hsix]; rfl)
      -- a full table holds IPv4 addresses only
      rw [haddrs, InterfaceConfig.cidrs_eq, List.take_append_of_le_length (by simpa using hfull)] at hmem
      obtain ⟨y, -, heq⟩ := List.mem_map.mp (List.mem_of_mem_take hmem)
      cases heq
  · obtain ⟨rest, hrest⟩ := List.head?_eq_some_iff.mp hx
    have hlt : spec.ipv4Addrs.length < W.addrCapacity := hroom.resolve_left (by simp [hrest])
    rw [haddrs, InterfaceConfig.cidrs_eq, hrest, List.take_append, List.length_map]
    refine List.mem_append_right _ ?_
    rw [← Nat.succ_pred_eq_of_pos (Nat.sub_pos_of_lt hlt)]
    exact List.mem_cons_self

namespace Reference

/-- The reference engine with the tables of its interfaces. -/
def addressed : Smoltcp :=
  { reference with
    Iface := List IpCidr × List DefaultRoute
    pollDelay := fun now _ s => reference.pollDelay now () s }

/-- Neither multicast nor the broadcast address. -/
def assignable : IpAddress → Bool
  | .v4 a => a.toNat / 2 ^ 28 ≠ 14 ∧ a ≠ 0xffffffff
  | .v6 a => a.toNat / 2 ^ 120 ≠ 255

/-- An interface with room for two addresses and two routes. -/
def twoPlaces : Wiring addressed where
  addrCapacity := 2
  routeCapacity := 2
  cidrNew := fun a len => if len.toNat ≤ a.bits then some ⟨a, len⟩ else none
  create := fun _ _ _ => ([], [])
  setAnyIp := fun i _ => i
  addrs := Prod.fst
  push := fun table cidr => if table.length < 2 then (table ++ [cidr], true) else (table, false)
  assignable := assignable
  updateIpAddrs := fun i f => (f i.1).bind fun table =>
    if table.all fun cidr => assignable cidr.addr then some (table, i.2) else none
  routes := Prod.snd
  addDefaultRoute := fun i gw =>
    let others := i.2.filter fun r => r.isV4 ≠ gw.isV4
    (i.1, if others.length < 2 then others ++ [gw] else others)

theorem twoPlaces_lawful : twoPlaces.Lawful where
  cidrNew_eq _ _ := rfl
  create_addrs _ _ _ := rfl
  create_routes _ _ _ := rfl
  setAnyIp_addrs _ _ := rfl
  setAnyIp_routes _ _ := rfl
  push_eq _ _ := rfl
  updateIpAddrs_isSome i f := by
    simp only [twoPlaces, List.all_eq_true]
    cases f i.1 with
    | none => simp
    | some table =>
      simp only [Option.bind_some, Option.some.injEq, exists_eq_left']
      split
      · next h => exact iff_of_true rfl h
      · next h => exact iff_of_false Bool.false_ne_true h
  updateIpAddrs_addrs i f i' h := by
    obtain ⟨table, htable, h⟩ := Option.bind_eq_some_iff.mp h
    obtain ⟨-, h⟩ := Option.ite_none_right_eq_some.mp h
    cases h
    exact htable
  updateIpAddrs_routes i f i' h := by
    obtain ⟨table, -, h⟩ := Option.bind_eq_some_iff.mp h
    obtain ⟨-, h⟩ := Option.ite_none_right_eq_some.mp h
    cases h
    rfl
  addDefaultRoute_addrs _ _ := rfl
  addDefaultRoute_routes i gw hnew := by
    have hkept : i.2.filter (fun r => r.isV4 ≠ gw.isV4) = i.2 :=
      List.filter_eq_self.mpr fun r hr => decide_eq_true (hnew r hr)
    show (if (i.2.filter fun r => r.isV4 ≠ gw.isV4).length < 2 then _ else _) = _
    rw [hkept]
    rfl

/-- Two IPv4 addresses and an IPv6 address. -/
def crowded : InterfaceConfig := ((InterfaceConfig.new 0x0a000001 24).ipv4 0x0a000101 24).ipv6 1 64

/-- The tables of the interface that `crowded` gives. -/
def crowdedTables : List IpCidr × List DefaultRoute :=
  ([⟨.v4 0x0a000001, 24⟩, ⟨.v4 0x0a000101, 24⟩], [.v4 0x0a000001, .v6 1])

end Reference

open Reference in
/-- Two IPv4 addresses fill the table: the default route of IPv6 goes through an address left out.
A multicast address is not installed. -/
theorem addresses_installed_crowded :
    crowded.Valid twoPlaces ∧ twoPlaces.wireInterface crowded .default 0 0 = some crowdedTables ∧
    (¬∀ x ∈ crowded.ipv6Addrs.head?, ⟨.v6 x.1, x.2⟩ ∈ twoPlaces.addrs crowdedTables) ∧
    ¬(InterfaceConfig.new 0xe0000001 24).Valid twoPlaces := by
  have hwired : twoPlaces.wireInterface crowded .default 0 0 = some crowdedTables := rfl
  obtain ⟨hvalid, htables⟩ := addresses_installed twoPlaces_lawful (by decide) crowded .default 0 0
  refine ⟨hvalid.mp ⟨_, hwired⟩, hwired, fun h => absurd ((htables _ hwired).2.2.2.mp h) (by decide), fun h => ?_⟩
  exact absurd (h.assignable ⟨.v4 0xe0000001, 24⟩ (by decide)) (by decide)

/-! ### The chain of calls -/

/-- `NetstackBuilder` before `build`: an interface is given by its configuration. -/
structure Setup where
  config : NetstackConfig
  interfaces : List (InterfaceId × InterfaceConfig)
  /-- No identifier twice. -/
  distinct : (interfaces.map Prod.fst).Nodup

namespace Setup

/-- `NetstackBuilder::new`. -/
def new : Setup := ⟨.default, [], List.nodup_nil⟩

/-- A setter changes the configuration. -/
def configure (b : Setup) (f : NetstackConfig → NetstackConfig) : Setup := { b with config := f b.config }

/-- `NetstackBuilder::mtu`. -/
def mtu (b : Setup) (mtu : ℕ) : Setup := b.configure ({ · with mtu := mtu })

/-- `NetstackBuilder::tcp_buffer_size`. -/
def tcpBufferSize (b : Setup) (size : ℕ) : Setup := b.configure ({ · with tcpBufferSize := size })

/-- `NetstackBuilder::tcp_max_connections`. -/
def tcpMaxConnections (b : Setup) (n : ℕ) : Setup := b.configure ({ · with tcpMaxConnections := n })

/-- `NetstackBuilder::tcp_socket_pool`. -/
def tcpSocketPool (b : Setup) (n : ℕ) : Setup := b.configure ({ · with tcpPoolSize := n })

/-- `NetstackBuilder::udp_session_timeout`. -/
def udpSessionTimeout (b : Setup) (timeout : ℕ) : Setup := b.configure ({ · with udpSessionTimeout := timeout })

/-- `NetstackBuilder::udp_max_sessions`. -/
def udpMaxSessions (b : Setup) (n : ℕ) : Setup := b.configure ({ · with udpMaxSessions := n })

/-- `NetstackBuilder::channel_capacity`. -/
def channelCapacity (b : Setup) (n : ℕ) : Setup := b.configure ({ · with channelCapacity := n })

/-- `NetstackBuilder::udp_buffer`. -/
def udpBuffer (b : Setup) (packets bytes : ℕ) : Setup :=
  b.configure ({ · with udpBufferPackets := packets, udpBufferBytes := bytes })

/-- `NetstackBuilder::max_buffer_bytes`. -/
def maxBufferBytes (b : Setup) (limit : Option ℕ) : Setup := b.configure ({ · with maxBufferBytes := limit })

/-- The identifiers added so far. -/
def ids (b : Setup) : List InterfaceId := b.interfaces.map Prod.fst

/-- `NetstackBuilder::add_interface`. -/
def addInterface (b : Setup) (id : InterfaceId) (spec : InterfaceConfig) : Except NetstackError Setup :=
  if h : id ∈ b.ids then .error (.interfaceNotFound id)
  else .ok
    { b with
      interfaces := b.interfaces ++ [(id, spec)]
      distinct := by
        rw [List.map_append, List.nodup_append']
        exact ⟨b.distinct, List.nodup_singleton _, List.disjoint_singleton.mpr h⟩ }

/-- The engine's interfaces, each made with a random seed and at a time. -/
def made (W : Wiring S) (clock : InterfaceId → ℕ × Instant) (b : Setup) : Option (List (InterfaceId × S.Iface)) :=
  b.interfaces.mapM fun x => (W.wireInterface x.2 b.config (clock x.1).1 (clock x.1).2).map fun i => (x.1, i)

/-- An interface keeps its identifier. -/
theorem made_ids {W : Wiring S} {clock : InterfaceId → ℕ × Instant} {b : Setup} {made : List (InterfaceId × S.Iface)}
    (h : b.made W clock = some made) : made.map Prod.fst = b.ids := by
  unfold Setup.made at h
  unfold ids
  generalize b.interfaces = interfaces at h ⊢
  induction interfaces generalizing made with
  | nil =>
    cases h
    rfl
  | cons x rest ih =>
    rw [List.mapM_cons] at h
    obtain ⟨y, hy, h⟩ := Option.bind_eq_some_iff.mp h
    obtain ⟨rest', hrest, h⟩ := Option.bind_eq_some_iff.mp h
    obtain ⟨i, -, rfl⟩ := Option.map_eq_some_iff.mp hy
    cases h
    rw [List.map_cons, List.map_cons, ih hrest]

/-- The interfaces are made unless one of them panics. -/
theorem made_isSome {W : Wiring S} (hW : W.Lawful) (clock : InterfaceId → ℕ × Instant) (b : Setup) :
    (b.made W clock).isSome ↔ ∀ x ∈ b.interfaces, x.2.Valid W := by
  unfold made
  induction b.interfaces with
  | nil => simp
  | cons x rest ih =>
    rw [List.mapM_cons, List.forall_mem_cons, ← ih,
      ← hW.wireInterface_isSome x.2 b.config (clock x.1).1 (clock x.1).2]
    cases W.wireInterface x.2 b.config (clock x.1).1 (clock x.1).2 with
    | none => simp
    | some i => simp [Option.isSome_bind]

/-- What `build` makes its core of, unless an interface panics. -/
def wired (W : Wiring S) (clock : InterfaceId → ℕ × Instant) (b : Setup) : Option (NetstackBuilder S) :=
  (b.made W clock).pmap (p := fun made => made.map Prod.fst = b.ids)
    (fun made h => ⟨b.config, made, h ▸ b.distinct⟩) fun _ h => made_ids h

theorem exists_wired {W : Wiring S} (hW : W.Lawful) (clock : InterfaceId → ℕ × Instant) (b : Setup) :
    (∃ nb, b.wired W clock = some nb) ↔ ∀ x ∈ b.interfaces, x.2.Valid W := by
  rw [← Option.isSome_iff_exists, ← made_isSome hW clock, wired, Option.isSome_pmap]

theorem wired_ids {W : Wiring S} {clock : InterfaceId → ℕ × Instant} {b : Setup} {nb : NetstackBuilder S}
    (h : b.wired W clock = some nb) : nb.interfaces.map Prod.fst = b.ids := by
  obtain ⟨made, hids, -, rfl⟩ := Option.pmap_eq_some_iff.mp h
  exact hids

end Setup

/-- A call on the builder: `add_interface` or a setter. The setters of the log level and of the
allocator write fields that only logging and the allocator read. -/
inductive BuildCall where
  | mtu (n : ℕ)
  | tcpBufferSize (size : ℕ)
  | tcpMaxConnections (n : ℕ)
  | tcpSocketPool (n : ℕ)
  | udpSessionTimeout (timeout : ℕ)
  | udpMaxSessions (n : ℕ)
  | channelCapacity (n : ℕ)
  | udpBuffer (packets bytes : ℕ)
  | maxBufferBytes (limit : Option ℕ)
  | addInterface (id : InterfaceId) (spec : InterfaceConfig)

namespace BuildCall

/-- What a call does; one that fails takes the builder with it. -/
def apply (b : Setup) : BuildCall → Except NetstackError Setup
  | .mtu n => .ok (b.mtu n)
  | .tcpBufferSize size => .ok (b.tcpBufferSize size)
  | .tcpMaxConnections n => .ok (b.tcpMaxConnections n)
  | .tcpSocketPool n => .ok (b.tcpSocketPool n)
  | .udpSessionTimeout timeout => .ok (b.udpSessionTimeout timeout)
  | .udpMaxSessions n => .ok (b.udpMaxSessions n)
  | .channelCapacity n => .ok (b.channelCapacity n)
  | .udpBuffer packets bytes => .ok (b.udpBuffer packets bytes)
  | .maxBufferBytes limit => .ok (b.maxBufferBytes limit)
  | .addInterface id spec => b.addInterface id spec

/-- A chain of calls. -/
def run (calls : List BuildCall) (b : Setup) : Except NetstackError Setup := calls.foldlM apply b

/-- The identifier that a call adds. -/
def id? : BuildCall → Option InterfaceId
  | .addInterface id _ => some id
  | _ => none

/-- The identifiers that the calls add. -/
def ids (calls : List BuildCall) : List InterfaceId := calls.filterMap id?

/-- What a call does to the identifiers. -/
theorem apply_cases (b : Setup) (call : BuildCall) :
    (∃ b', call.apply b = .ok b' ∧ b'.ids = b.ids ++ call.id?.toList) ∨
      ∃ id, call.id? = some id ∧ id ∈ b.ids ∧ call.apply b = .error (.interfaceNotFound id) := by
  cases call with
  | addInterface id spec =>
    simp only [apply, Setup.addInterface]
    split
    · next h => exact .inr ⟨id, rfl, h, rfl⟩
    · exact .inl ⟨_, rfl, by simp [Setup.ids, id?]⟩
  | _ => exact .inl ⟨_, rfl, (List.append_nil _).symm⟩

/-- **A chain of calls** adds all its identifiers, or ends at the first that is in use. -/
theorem run_cases (calls : List BuildCall) (b : Setup) :
    (∃ b', run calls b = .ok b' ∧ b'.ids = b.ids ++ ids calls) ∨
      ¬(b.ids ++ ids calls).Nodup ∧ ∃ id, run calls b = .error (.interfaceNotFound id) := by
  induction calls generalizing b with
  | nil => exact .inl ⟨b, rfl, (List.append_nil _).symm⟩
  | cons call rest ih =>
    have hids : ids (call :: rest) = call.id?.toList ++ ids rest := by
      unfold ids
      cases hid : call.id? <;> simp [hid]
    rcases apply_cases b call with ⟨b₁, hb₁, hids₁⟩ | ⟨id, hid, hmem, herr⟩
    · have hrun : run (call :: rest) b = run rest b₁ := by
        unfold run
        rw [List.foldlM_cons, hb₁]
        rfl
      rw [hrun, hids, ← List.append_assoc, ← hids₁]
      exact ih b₁
    · refine .inr ⟨fun hnodup => ?_, id, ?_⟩
      · rw [hids, hid] at hnodup
        exact (List.nodup_append'.mp hnodup).2.2 hmem (by simp)
      · unfold run
        rw [List.foldlM_cons, herr]
        rfl

end BuildCall

/-! ### The interfaces of a run -/

/-- `NetstackHandle::interface_ids`. -/
def Runtime.interfaceIds (s : Runtime S) : List InterfaceId := s.world.core.slots.map (·.id)

/-- A run neither adds an interface nor removes one. -/
theorem World.Reachable.ids (hS : S.Lawful) {b : NetstackBuilder S} {w : World S} (h : World.AnyRun b w) :
    w.core.ids = b.interfaces.map Prod.fst := by
  refine System.Reaches.invariant (P := fun w : World S => w.core.ids = b.interfaces.map Prod.fst) h ?_ ?_
  · show (b.interfaces.map (buildInterface b.config)).map (·.id) = _
    rw [List.map_map]
    rfl
  · rintro w l w' hw hids ⟨-, hstep⟩
    have hinv : w.Inv False b := World.Reachable.inv hS False.elim hw
    exact (hinv.step hS False.elim hstep).1.ids.trans hids

/-- What a call of `send_ip_packet` that has returned says about its interface. -/
def Pipeline.Answers (ids : List InterfaceId) (call : IngressPacket × Except NetstackError Unit) : Prop :=
  if call.1.interface ∈ ids then ∀ id, call.2 ≠ .error (.interfaceNotFound id)
  else call.2 = .error (.interfaceNotFound call.1.interface)

theorem Runtime.trySend_known (s : Runtime S) (pkt : IngressPacket) (id : InterfaceId) :
    (s.trySend pkt).2 ≠ .error (.interfaceNotFound id) := by
  unfold trySend
  split
  · simp
  split <;> simp

/-- The calls answer by the interfaces of the stack. -/
theorem Pipeline.Reachable.answers (hS : S.Lawful) {b : NetstackBuilder S} {s : Pipeline S}
    (h : Pipeline.Reachable b s) : ∀ call ∈ s.returned, Answers (b.interfaces.map Prod.fst) call := by
  refine System.Reaches.invariant (P := fun s : Pipeline S =>
    ∀ call ∈ s.returned, Answers (b.interfaces.map Prod.fst) call) h (by simp [init]) ?_
  rintro s a t hs hold hstep
  have hi : s.Inv b := Pipeline.Reachable.inv hS hs
  have hids : s.runtime.world.core.ids = b.interfaces.map Prod.fst := World.Reachable.ids hS hi.runtime.anyRun
  cases a with
  | check pkt =>
    simp only [Steps, step] at hstep
    split at hstep
    · cases hstep
    split at hstep
    · next hnone =>
      cases hstep
      refine List.forall_mem_append.mpr ⟨hold, List.forall_mem_singleton.mpr ?_⟩
      have hunknown : pkt.interface ∉ b.interfaces.map Prod.fst := by
        rw [← hids, ← Core.exists_slot]
        rintro ⟨slot, hslot⟩
        simp [hslot] at hnone
      unfold Answers
      rw [if_neg hunknown]
    · cases hstep
      exact hold
  | trySend pkt =>
    simp only [Steps, step, Option.ite_none_right_eq_some] at hstep
    obtain ⟨hpkt, hstep⟩ := hstep
    cases hstep
    refine List.forall_mem_append.mpr ⟨hold, List.forall_mem_singleton.mpr ?_⟩
    have hknown : pkt.interface ∈ b.interfaces.map Prod.fst := hids ▸ hi.checked pkt hpkt
    unfold Answers
    rw [if_pos hknown]
    exact s.runtime.trySend_known pkt
  | task a =>
    simp only [Steps, step, Option.ite_none_right_eq_some] at hstep
    obtain ⟨-, hstep⟩ := hstep
    obtain ⟨r, -, rfl⟩ := Option.map_eq_some_iff.mp hstep
    exact hold

/-- **The interfaces of a stack are those added.** A chain of builder calls ends well just when it
adds no identifier twice, and `build` then gives a stack unless the addresses of an interface make
it panic. In every run of the stack that it gives: `interface_ids` lists the identifiers in the
order of the calls; every call of `send_ip_packet` has answered
`InterfaceNotFound`, with the packet's identifier, if it is not one of them, and something else if
it is; and every packet in the channel is for an interface that the core has. -/
theorem interfaces_known (hS : S.Lawful) (W : Wiring S) (clock : InterfaceId → ℕ × Instant)
    (calls : List BuildCall) :
    ((∃ b, BuildCall.run calls .new = .ok b) ↔ (BuildCall.ids calls).Nodup) ∧
    ∀ b, BuildCall.run calls .new = .ok b →
      (W.Lawful → ((∃ nb, b.wired W clock = some nb) ↔ ∀ x ∈ b.interfaces, x.2.Valid W)) ∧
      ∀ nb, b.wired W clock = some nb → ∀ s, Pipeline.Reachable nb s →
        s.runtime.interfaceIds = BuildCall.ids calls ∧
        (∀ call ∈ s.returned,
          if call.1.interface ∈ BuildCall.ids calls then ∀ id, call.2 ≠ .error (.interfaceNotFound id)
          else call.2 = .error (.interfaceNotFound call.1.interface)) ∧
        ∀ pkt ∈ s.runtime.channel, (s.runtime.world.core.slot pkt.interface).isSome := by
  have hnew : Setup.new.ids = [] := rfl
  constructor
  · rcases BuildCall.run_cases calls .new with ⟨b, hb, hids⟩ | ⟨hnodup, id, herr⟩
    · rw [hnew, List.nil_append] at hids
      exact ⟨fun _ => hids ▸ b.distinct, fun _ => ⟨b, hb⟩⟩
    · rw [hnew, List.nil_append] at hnodup
      refine ⟨?_, fun h => absurd h hnodup⟩
      rintro ⟨b, hb⟩
      rw [herr] at hb
      cases hb
  · intro b hb
    refine ⟨fun hW => Setup.exists_wired hW clock b, fun nb hnb s hs => ?_⟩
    have hids : b.ids = BuildCall.ids calls := by
      rcases BuildCall.run_cases calls .new with ⟨b', hb', hids⟩ | ⟨-, id, herr⟩
      · cases hb.symm.trans hb'
        rw [hids, hnew, List.nil_append]
      · cases hb.symm.trans herr
    have hwired : nb.interfaces.map Prod.fst = BuildCall.ids calls := (Setup.wired_ids hnb).trans hids
    have hi := hs.inv hS
    refine ⟨(World.Reachable.ids hS hi.runtime.anyRun).trans hwired, ?_, fun pkt hpkt => ?_⟩
    · exact hwired ▸ Pipeline.Reachable.answers hS hs
    · exact Option.isSome_iff_exists.mpr (Core.exists_slot.mpr (hi.channel pkt hpkt))

namespace Reference

theorem addressed_lawful : addressed.Lawful where
  freeIndex_free := reference_lawful.freeIndex_free
  tcpIsOpen_iff := reference_lawful.tcpIsOpen_iff
  tcpNew_capacity := reference_lawful.tcpNew_capacity
  tcpListen_ok := reference_lawful.tcpListen_ok
  tcpClose_ok := reference_lawful.tcpClose_ok
  tcpRecvSlice_ok := reference_lawful.tcpRecvSlice_ok
  tcpSendSlice_ok := reference_lawful.tcpSendSlice_ok
  tcpRegisterRecvWaker_ok := reference_lawful.tcpRegisterRecvWaker_ok
  tcpRegisterSendWaker_ok := reference_lawful.tcpRegisterSendWaker_ok
  udpNew_ok := reference_lawful.udpNew_ok
  udpBind_ok := reference_lawful.udpBind_ok
  udpRecv_nil := reference_lawful.udpRecv_nil
  udpRecv_cons := reference_lawful.udpRecv_cons
  udpSendSlice_ok := reference_lawful.udpSendSlice_ok
  since_self := reference_lawful.since_self

/-- Two interfaces are added, the MTU being set in between. -/
def addTwo : List BuildCall :=
  [.addInterface wlan crowded, .mtu 1400, .addInterface eth .default]

/-- What the calls of `addTwo` give. -/
def two : Setup := ⟨{ NetstackConfig.default with mtu := 1400 }, [(wlan, crowded), (eth, .default)], by decide⟩

/-- The same with the engine's interfaces made. -/
def twoWired : NetstackBuilder addressed := ⟨two.config, [(wlan, crowdedTables), (eth, ([], []))], by decide⟩

end Reference

open Reference in
/-- A packet for a third interface is refused, one for the second is in the channel. -/
theorem interfaces_known_two : BuildCall.run addTwo .new = .ok two ∧
    two.wired twoPlaces (fun _ => (0, 0)) = some twoWired ∧
    ∃ s : Pipeline addressed, Pipeline.Reachable twoWired s ∧
      s.runtime.interfaceIds = [wlan, eth] ∧ s.runtime.channel = [⟨eth, [1]⟩] ∧
      (s.runtime.world.core.slot eth).isSome := by
  have hrun : BuildCall.run addTwo .new = .ok two := rfl
  have hwired : two.wired twoPlaces (fun _ => (0, 0)) = some twoWired := rfl
  obtain ⟨s, hs, hcheck⟩ := Pipeline.exists_of_run twoWired
    [.check ⟨⟨7⟩, [5]⟩, .check ⟨eth, [1]⟩, .trySend ⟨eth, [1]⟩]
    (fun s => decide (s.runtime.channel = [⟨eth, [1]⟩])) (by decide +kernel)
  have hchannel := of_decide_eq_true hcheck
  obtain ⟨hids, -, hknown⟩ :=
    ((interfaces_known addressed_lawful twoPlaces (fun _ => (0, 0)) addTwo).2 two hrun).2 twoWired hwired s hs
  exact ⟨hrun, hwired, s, hs, hids, hchannel, hknown ⟨eth, [1]⟩ (by simp [hchannel])⟩

end WayNetstack
