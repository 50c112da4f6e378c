import ExchangeNode.Configuration.Basic

/-!
# What a node registers as
-/

namespace ExchangeNode.Registration

def protocol : String := "0.6.0"

def software : String := "0.2.3"

/-- The first registration of a node, as a provider or with the options of a server. -/
def ofNode (name : String) (channelTypes : List UInt32) (server : Option ServerOptions) :
    Registration :=
  match server with
  | none => ⟨name, .provider, "", protocol, -1, 0, "Default", channelTypes, "", software⟩
  | some o =>
    ⟨name, o.nodeType, o.exchangeAddress, protocol, -1, o.cluster, o.area, channelTypes, o.gateway,
      software⟩

end ExchangeNode.Registration
