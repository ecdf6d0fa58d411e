import Credential.Claims.Config
import Credential.Client.Config
import Credential.Client.Issue
import Credential.Client.Request
import Credential.IdToken.Config
import Credential.Saml.Config
import Credential.Saml.Grant
import Credential.Proofs.Xml.CharacterData
import Credential.Proofs.Xml.Lexeme
import Credential.Proofs.Xml.WellFormed
import Credential.Proofs.Xml.Reread
import Credential.Proofs.Xml.Written
import Credential.Proofs.Xml.CanonicalView
import Credential.Proofs.Saml.ReadCongr
import Credential.Proofs.Saml.SignedText
import Credential.Proofs.Outcome
import Credential.Proofs.XmlSignature.Enveloped
import Credential.Proofs.Saml.Verifier
import Credential.Proofs.IdToken.Validator
import Credential.Proofs.Claims.Verifier
import Credential.Proofs.Client.Registry
import Credential.Proofs.Client.Request
import Credential.Proofs.Client.Verifier
import Credential.Proofs.RemoteKeys.History
import Credential.Proofs.RemoteKeys.Freshness
import Credential.Proofs.RemoteKeys.Throttle
import Credential.Proofs.RemoteKeys.Rotation
import Credential.Proofs.Checks
import Credential.Proofs.Time.Window
import Credential.Proofs.Skew
import Credential.Proofs.Saml.Conditions
import Credential.Proofs.TrustedKeys
import Credential.Proofs.Lifetime
import Credential.Proofs.Bytes
import Credential.Proofs.Text.Base64
import Credential.Proofs.Text.Blank
import Credential.Proofs.Crypto.Aes
import Credential.Proofs.Crypto.Cbc
import Credential.Proofs.Jose.Compact
import Credential.Proofs.Jwe.Content
import Credential.Proofs.IdToken.Encrypted
import Credential.Proofs.IdToken.Settings
import Credential.Proofs.Claims.Exact
import Credential.Proofs.IdToken.KeyLookup
import Credential.Proofs.RemoteKeys.Overlap
import Credential.Proofs.Jwe.Opening
import Credential.Proofs.Xml.Declarations
import Credential.Proofs.Xml.Roundtrip
import Credential.Proofs.Xml.FixedPoint
import Credential.Proofs.Xml.Comments
import Credential.Proofs.Saml.Comments
import Credential.Proofs.Jose.Spelling
import Credential.Proofs.Json.Record
import Credential.Proofs.Jose.Header
import Credential.Proofs.IdToken.AuthAge
import Credential.Proofs.Text.Form
import Credential.Proofs.Client.Precedence
import Credential.Proofs.Number.Binary64
import Credential.Proofs.Claims.Reading
import Credential.Proofs.Claims.Date
import Credential.Proofs.Json.Members
import Credential.Proofs.Claims.Roundtrip
import Credential.Proofs.Text.Ascii
import Credential.Proofs.Text.Escape
import Credential.Proofs.Client.Basic
import Credential.Proofs.Client.FormPost
import Credential.Proofs.Jose.HashBinding
import Credential.Proofs.Jwk.Selection
import Credential.Proofs.Text.Body
import Credential.Proofs.Saml.Grant
import Credential.Proofs.Client.Issue
