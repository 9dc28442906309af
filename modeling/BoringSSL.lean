import BoringSSL.Proofs.DtlsWindow
import BoringSSL.Proofs.DtlsRecordSize
import BoringSSL.Proofs.DtlsRecord
import BoringSSL.Proofs.TlsWriteRun
import BoringSSL.Proofs.DtlsKeyUpdate
import BoringSSL.Proofs.Ber
import BoringSSL.Proofs.Asn1Time
import BoringSSL.Proofs.Stack
import BoringSSL.Proofs.Base64
import BoringSSL.Proofs.TlsRecord
import BoringSSL.Proofs.SlhDsa
import BoringSSL.Proofs.PqEncoding
import BoringSSL.Proofs.TicketKeys
import BoringSSL.Proofs.SessionCache
import BoringSSL.Proofs.Ocsp
import BoringSSL.Proofs.Crl
import BoringSSL.Proofs.PathVerifier
import BoringSSL.Proofs.Oid
import BoringSSL.Proofs.SetOf
import BoringSSL.Proofs.Wildcard
import BoringSSL.Proofs.UriConstraints
import BoringSSL.Proofs.X509Crl
import BoringSSL.Proofs.IpAddress
import BoringSSL.Proofs.Ecdsa
import BoringSSL.Proofs.NameConstraints
import BoringSSL.Proofs.BigNum
import BoringSSL.Proofs.Wnaf
import BoringSSL.Proofs.BnBytes
import BoringSSL.Proofs.EcBatch
