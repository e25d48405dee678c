import PackageConfig.Main
import PackageConfig.Proofs.Lock.Format
import PackageConfig.Proofs.Lock.Layout
import PackageConfig.Proofs.Lock.RoundTrip
import PackageConfig.Proofs.Lock.Injectivity
import PackageConfig.Proofs.Lock.Acceptance
import PackageConfig.Proofs.Lock.Damage
import PackageConfig.Proofs.Lock.Stream
import PackageConfig.Proofs.Options.Catalog
import PackageConfig.Proofs.Options.Closure
import PackageConfig.Proofs.Options.OneByOne
import PackageConfig.Proofs.Options.Start
import PackageConfig.Proofs.Rules.Prune
import PackageConfig.Proofs.Rules.Rerun
import PackageConfig.Proofs.Rules.Explanation
import PackageConfig.Proofs.Recipe.Validity
import PackageConfig.Proofs.Recipe.Phases
import PackageConfig.Proofs.Recipe.Influence
import PackageConfig.Proofs.Pin.Set
import PackageConfig.Proofs.Rules.Pin
import PackageConfig.Proofs.Recipe.Totality
import PackageConfig.Proofs.Recipe.Reordering
import PackageConfig.Proofs.Recipe.Removals
import PackageConfig.Proofs.Profile
import PackageConfig.Proofs.CommandLine.Lockfile
import PackageConfig.Proofs.Recipe.Assembly
import PackageConfig.Proofs.Manifest.Data
import PackageConfig.Proofs.CommandLine.Files
import PackageConfig.Proofs.Recipe.BuiltIn
import PackageConfig.Proofs.Recipe.Emission
import PackageConfig.Proofs.Options.Declaring
import PackageConfig.Proofs.Rules.CacheScript
import PackageConfig.Proofs.Recipe.DriverArguments
import PackageConfig.Proofs.Pin.WrittenForm
import PackageConfig.Proofs.Options.Request
import PackageConfig.Proofs.Manifest.Rows
import PackageConfig.Proofs.Recipe.Layering
import PackageConfig.Proofs.Pin.Inserting
