import Recto.Genesis.Canonical
import Recto.Genesis.Devices
import Recto.Genesis.Monotone
import Recto.Data.HashChain
import Recto.Genesis.CrashConsistency
import Recto.Server.Console
import Recto.Server.LastOwner
import Recto.Server.MemberBindings
import Recto.Server.OwnerReset
import Recto.State.Documents
import Recto.UserVault.Standing
import Recto.Pending.Resolutions
import Recto.Pending.Results
import Recto.Nssm.Reconcile
import Recto.Profiles.Updates
import Recto.Profiles.Signed
import Recto.Secrets.Agreement
import Recto.Phone.CardAgreement
import Recto.Quorum.VerifyQuorum
import Recto.State.RevocationFile
import Recto.State.PhoneRegistry
import Recto.Genesis.Authority
import Recto.Server.DigestDomains
import Recto.Genesis.SignatureFallback
import Recto.Wire.Records
import Recto.Connections.Sidecar
import Recto.Genesis.Damage
import Recto.Quorum.Signers
import Recto.Clusters.Identity
import Recto.Ethereum.RlpRoundTrip
import Recto.Bitcoin.AddressRoundTrip
import Recto.Connections.ActGrant
import Recto.Qr.MultiWitness
import Recto.Codes.Exposure
import Recto.UserVault.RequestRuns
import Recto.Clusters.AllOrNothing
import Recto.Bitcoin.DecodedAddress
import Recto.Text.Base58
import Recto.Ethereum.RlpCanonical
import Recto.Ethereum.DeclaredTypes
import Recto.Connections.CardText
import Recto.UserVault.SignedActs
import Recto.Capability.Weight
import Recto.Capability.TokenRoundTrip
import Recto.Ethereum.Recovery
import Recto.Chains.SignedMessages
import Recto.Ethereum.Keccak
import Recto.Stellar.Canonical
import Recto.Bitcoin.NamedAddress
import Recto.Qr.Completion
import Recto.Profiles.IdentityFile
import Recto.Capability.StoredVerify
import Recto.Pending.Carding
import Recto.Restart.Backoff
import Recto.Phone.CanonicalOrder
import Recto.Wallet.DerivationPath
import Recto.Wallet.Bip32
import Recto.Data.Regroup
import Recto.Wallet.Mnemonic
import Recto.Profiles.Naming
import Recto.Data.Traverse
import Recto.Server.SealedIdentity
import Recto.Phone.Verifier
import Recto.Phone.Attestation
import Recto.Text.Percent
import Recto.Phone.PairLink
import Recto.Phone.PairScan
import Recto.Ethereum.Transaction
import Recto.Ethereum.TransactionHash
import Recto.Server.TokenCompare
import Recto.Grants.PairTuple
import Recto.Phone.PushRecord
import Recto.Data.Unwinding
import Recto.Launcher.Release
import Recto.Sessions.Bounded
import Recto.SignHelper.Answers
import Recto.Config.Written
