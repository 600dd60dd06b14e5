import SkadiCore.Config.Start

/-!
# The AmneziaWG configuration of a client

Model of `export_awg_client_conf` (`crates/skadi-config/src/lib.rs`, lines 1203-1236) and
`render_client_conf` (`crates/skadi-transport/src/awg/render.rs`, lines 11-85). Both ends of a
tunnel have to be given the same preshared key and the same settings, and the server has to
route the address of the client to it.

**The preshared key is not exported.** `AwgClientExport` has no field for it
(`preshared_key_not_exported`).

**Abstraction.** As for the server, the interface is taken as `wireguard-conf` is given it, before
it is written as text, and a network is its text.
-/

namespace SkadiCore.Config

structure AwgClientExport where
  privateKey : String
  address : String
  dns : Option String
  allowedIps : List String
  persistentKeepalive : Option UInt16

structure AwgClientInterface where
  privateKey : Bytes
  address : String
  settings : AmneziaSettings
  mtu : Option UInt16
  dns : Option (List String)
  peers : List AwgPeer

/-- `public_key_from_private` (`awg/keys.rs`, lines 13-17); `publicOf` is what
    `PublicKey::from` makes of a private key. -/
def publicKeyFromPrivate (env : Env) (publicOf : Bytes → String) (privateKey : String) :
    Except String String :=
  ((env.wgPrivateKey privateKey).mapError fun e => s!"invalid AWG private_key: {e}").map publicOf

/-- `render_client_conf` (`awg/render.rs`, lines 33-85), up to the text that WireGuard makes of
    the interface. -/
def renderClientConf (env : Env) (serverPublicKey endpoint : String) (client : AwgClientExport)
    (obfuscation : AwgObfuscationConfig) (mtu : Option UInt16) :
    Except String AwgClientInterface := do
  let privateKey ← (env.wgPrivateKey client.privateKey).mapError fun e =>
    s!"invalid client private_key: {e}"
  let address ← parseIpnet env "client address" client.address
  let settings ← buildAmneziaSettings env obfuscation
  let allowedIps ← client.allowedIps.mapM (parseIpnet env "allowed_ips")
  bailIf (trim endpoint).isEmpty "AWG endpoint must not be empty"
  let serverPublicKey ← (env.wgPublicKey serverPublicKey).mapError fun e =>
    s!"invalid server public_key: {e}"
  let peer : AwgPeer :=
    ⟨serverPublicKey, allowedIps, none, some (trim endpoint), client.persistentKeepalive⟩
  let dns := (client.dns.filter fun dns => !(trim dns).isEmpty).map fun dns => [trim dns]
  return ⟨privateKey, address, settings, mtu, dns, [peer]⟩

def exportAwgClientConf (env : Env) (publicOf : Bytes → String) (config : Config)
    (peerIndex : ℕ) (clientPrivateKey endpoint : String) : Except String AwgClientInterface := do
  let server ← awgServerConfig config
  let peer ← okOr s!"peer index {peerIndex} out of range" server.peers[peerIndex]?
  let serverPublic ← publicKeyFromPrivate env publicOf server.privateKey
  let clientAddress := peer.allowedIps.head?.getD "10.8.0.2/32"
  let client : AwgClientExport :=
    { privateKey := clientPrivateKey
      address := clientAddress
      dns := some "1.1.1.1"
      allowedIps := ["0.0.0.0/0", "::/0"]
      persistentKeepalive := peer.persistentKeepalive <|> some 25 }
  renderClientConf env serverPublic endpoint client server.obfuscation server.mtu

/-! ## Agreement -/

/-- The client and the `i`-th peer of the server have the same preshared key, or none, and the
    same settings, and the address of the client is among the networks of the peer. -/
structure AwgAgrees (server : AwgInterface) (i : ℕ) (client : AwgClientInterface) : Prop where
  presharedKey : ∃ peer link, server.peers[i]? = some peer ∧ client.peers = [link] ∧
    link.presharedKey = peer.presharedKey
  settings : client.settings = server.settings
  address : ∃ peer, server.peers[i]? = some peer ∧ client.address ∈ peer.allowedIps

variable {env : Env} {config : Config} {publicOf : Bytes → String} {i : ℕ}
  {key endpoint : String} {client : AwgClientInterface} {server : AwgInterface}
  {runtime : AwgServerConfig}

theorem exportAwgClientConf_ok (hruntime : awgServerConfig config = .ok runtime)
    (h : exportAwgClientConf env publicOf config i key endpoint = .ok client) :
    ∃ peer link, runtime.peers[i]? = some peer ∧
      buildAmneziaSettings env runtime.obfuscation = .ok client.settings ∧
      client.peers = [link] ∧ link.presharedKey = none ∧
      client.address = peer.allowedIps.head?.getD "10.8.0.2/32" := by
  simp only [exportAwgClientConf, hruntime, bind_eq_ok, okOr_eq_ok, renderClientConf,
    exists_unit] at h
  obtain ⟨_, hsame, peer, hpeer, _, -, _, -, address, haddress, settings, hsettings, _, -, -,
    _, -, h⟩ := h
  cases hsame
  cases h
  simp only [parseIpnet] at haddress
  split_ifs at haddress
  cases haddress
  exact ⟨peer, _, hpeer, hsettings, rfl, rfl, rfl⟩

theorem awgServerConfig_peer (hruntime : awgServerConfig config = .ok runtime)
    {file : AwgPeerFileConfig} (hfile : config.transport.awg.peers[i]? = some file) :
    ∃ peer, runtime.peers[i]? = some peer ∧ peer.allowedIps = file.allowedIps ∧
      peer.presharedKey = file.presharedKey ∧ file.allowedIps ≠ [] := by
  simp only [awgServerConfig, bind_eq_ok, exists_unit] at hruntime
  obtain ⟨_, -, _, -, -, -, peers, hpeers, hruntime⟩ := hruntime
  cases hruntime
  obtain ⟨peer, hpeer, hbuilt⟩ := getElem?_of_mapM hpeers hfile
  simp only [awgPeerConfig, bind_eq_ok, exists_unit, bailIf_eq_ok] at hbuilt
  obtain ⟨-, hnonempty, hbuilt⟩ := hbuilt
  cases hbuilt
  exact ⟨_, hpeer, rfl, rfl, by simpa using hnonempty⟩

theorem eq_of_mapM_parseIpnet {field : String} {ips nets : List String}
    (h : ips.mapM (parseIpnet env field) = .ok nets) : nets = ips := by
  induction mapM_eq_ok.mp h with
  | nil => rfl
  | cons hnet hrest ih =>
    simp only [parseIpnet] at hnet
    split_ifs at hnet
    cases hnet
    rw [ih (mapM_eq_ok.mpr hrest)]

theorem renderServerConf_peer (hserver : renderServerConf env runtime = .ok server)
    {peer : AwgPeerConfig} (hpeer : runtime.peers[i]? = some peer) :
    buildAmneziaSettings env runtime.obfuscation = .ok server.settings ∧
      ∃ built, server.peers[i]? = some built ∧ built.allowedIps = peer.allowedIps ∧
        (built.presharedKey = none ↔ peer.presharedKey = none) := by
  simp only [renderServerConf, bind_eq_ok] at hserver
  obtain ⟨_, -, _, -, settings, hsettings, peers, hpeers, hserver⟩ := hserver
  cases hserver
  obtain ⟨built, hbuilt, hpeer⟩ := getElem?_of_mapM hpeers hpeer
  simp only [buildPeer, bind_eq_ok] at hpeer
  obtain ⟨_, -, allowedIps, hips, presharedKey, hpsk, _, -, hpeer⟩ := hpeer
  cases hpeer
  refine ⟨hsettings, _, hbuilt, eq_of_mapM_parseIpnet hips, ?_⟩
  cases hkey : peer.presharedKey with
  | none =>
    rw [hkey] at hpsk
    cases hpsk
    simp
  | some psk =>
    rw [hkey, Option.mapM_some] at hpsk
    obtain ⟨bytes, -, rfl⟩ := map_eq_ok.mp hpsk
    simp

/-- For every configuration, every peer of it, every private key of a client and every
    endpoint: what is exported for the peer agrees with what the server has for it exactly if
    the peer has no preshared key. -/
theorem awg_export_agrees_iff {file : AwgPeerFileConfig}
    (hfile : config.transport.awg.peers[i]? = some file)
    (hruntime : awgServerConfig config = .ok runtime)
    (hserver : renderServerConf env runtime = .ok server)
    (hclient : exportAwgClientConf env publicOf config i key endpoint = .ok client) :
    AwgAgrees server i client ↔ file.presharedKey = none := by
  obtain ⟨peer, hpeer, hips, hpsk, hnonempty⟩ := awgServerConfig_peer hruntime hfile
  obtain ⟨hsettings, built, hbuilt, hbuiltIps, hbuiltPsk⟩ := renderServerConf_peer hserver hpeer
  obtain ⟨peer', link, hpeer', hsettings', hlink, hnone, haddress⟩ :=
    exportAwgClientConf_ok hruntime hclient
  cases hpeer.symm.trans hpeer'
  have hsame : client.settings = server.settings :=
    Except.ok.inj (hsettings'.symm.trans hsettings)
  rw [← hpsk, ← hbuiltPsk]
  constructor
  · rintro ⟨⟨built', link', hbuilt', hlink', hkey⟩, -, -⟩
    cases hbuilt.symm.trans hbuilt'
    cases hlink.symm.trans hlink'
    exact hkey.symm.trans hnone
  · intro hbuiltNone
    refine ⟨⟨built, link, hbuilt, hlink, hnone.trans hbuiltNone.symm⟩, hsame, built, hbuilt, ?_⟩
    obtain ⟨ip, ips, hlist⟩ := List.exists_cons_of_ne_nil hnonempty
    rw [haddress, hbuiltIps, hips, hlist]
    exact List.mem_cons_self

def serverPublicKey : String := "b5TnQ1vKxW9cYd3LzH7sMf0RjG2pEoUaT8iXq6BkN4A="

def clientKey : String := "oW4sXk8NqB2mLd6VtY0cJz5RfH9pGeUaT3iCv7Qx1Ec="

def awgConfig : Config := sampleConfig "example.com" (sampleAwg serverKey "10.8.0.0/24")

theorem awg_export_agrees_sample :
    awgConfig.validate sampleEnv = .ok () ∧
      ∃ runtime server client, awgServerConfig awgConfig = .ok runtime ∧
        renderServerConf sampleEnv runtime = .ok server ∧
        exportAwgClientConf sampleEnv (fun _ => serverPublicKey) awgConfig 0 clientKey
          "vpn.example.com:51820" = .ok client ∧
        AwgAgrees server 0 client := by
  have hfile : awgConfig.transport.awg.peers[0]? =
      some ⟨peerKey, ["10.8.0.2/32"], none, none, none⟩ := rfl
  obtain ⟨runtime, server, hruntime, hserver⟩ : ∃ runtime server,
      awgServerConfig awgConfig = .ok runtime ∧
        renderServerConf sampleEnv runtime = .ok server := ⟨_, _, rfl, rfl⟩
  obtain ⟨client, hclient⟩ : ∃ client, exportAwgClientConf sampleEnv (fun _ => serverPublicKey)
      awgConfig 0 clientKey "vpn.example.com:51820" = .ok client := ⟨_, rfl⟩
  have hagrees := (awg_export_agrees_iff hfile hruntime hserver hclient).mpr rfl
  exact ⟨rfl, runtime, server, client, hruntime, hserver, hclient, hagrees⟩

def pskKey : String := "Rz6tLx2WqN8mVb4YkC0sHd9JfG5pUeAoT1iXv7Qa3Bc="

def pskConfig : Config :=
  { awgConfig with
    transport := { awgConfig.transport with
      awg := { awgConfig.transport.awg with
        peers := [⟨peerKey, ["10.8.0.2/32"], some pskKey, none, none⟩] } } }

theorem preshared_key_not_exported :
    pskConfig.validate sampleEnv = .ok () ∧
      ∃ runtime server client peer link, awgServerConfig pskConfig = .ok runtime ∧
        renderServerConf sampleEnv runtime = .ok server ∧
        exportAwgClientConf sampleEnv (fun _ => serverPublicKey) pskConfig 0 clientKey
          "vpn.example.com:51820" = .ok client ∧
        server.peers = [peer] ∧ peer.presharedKey = some (asBytes pskKey) ∧
        client.peers = [link] ∧ link.presharedKey = none :=
  ⟨rfl, _, _, _, _, _, rfl, rfl, rfl, rfl, rfl, rfl, rfl⟩

end SkadiCore.Config
