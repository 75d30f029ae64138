import BlackPearl.Domain.Media

/-!
# Setup configurations

The values of `internal/domain/setup.go`: the persisted selection of one file that Plex sees as a
movie or an episode.
-/

set_option autoImplicit false

namespace BlackPearl.Domain

open BlackPearl.Library

/-- `MediaType` in a configuration, which a caller or a file can set to any text. -/
inductive SetupMediaType
  | unset
  | movie
  | episode
  | unsupported (text : String)
  deriving DecidableEq, Repr

/-- `SetupConfiguration`. -/
structure SetupConfiguration where
  provider : String
  objectID : String
  name : String
  extension : String
  size : ℤ
  mediaType : SetupMediaType
  title : String
  year : ℤ
  showTitle : String
  season : ℤ
  episode : ℤ
  deriving DecidableEq, Repr

/-- `SetupConfiguration.providerOrDefault`. -/
def SetupConfiguration.providerOrDefault (c : SetupConfiguration) : String :=
  if c.provider = "" then defaultSetupProvider else c.provider

/-- `SetupConfiguration.Backing`. -/
def SetupConfiguration.backing (c : SetupConfiguration) : BackingRef where
  provider := c.providerOrDefault
  objectID := c.objectID

end BlackPearl.Domain
